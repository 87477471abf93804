import Forge.Data.FloatOrder
import Forge.Desktop.ArchiveSize
import Forge.Validate.RecorderArchive

/-!
# What the recorder verifier accepts

**`verifyArchive_ok_iff`**: the verifier accepts the directories whose files are the spelling of a manifest, a receipt
and a sequence of frames, with an index of every frame that has to be in it and no other (`Content`). One turn of its
loop is `verifyFrame_after`, the whole loop `foldlM_verifyFrame`.

Nothing is known of the digest, so of the replay it is only said that its digest is that of the replay of the frames.
-/

namespace Forge.Validate.Recorder

open Desktop Lines

variable (lib : Libraries)

/-! ### What is accepted -/

/-- The index entries of frames, the first of which has this number and stands at this offset. -/
def entriesFrom : ℕ → ℕ → List ReplayFrame → List RecorderIndexEntry
  | _, _, [] => []
  | sequence, offset, f :: fs =>
    { sequence := .ofNat sequence, t := f.t, byteOffset := offset } ::
      entriesFrom (sequence + 1) (offset + (lib.frames.line f).length) fs

/-- The index entries of all frames. -/
def entries (frames : List ReplayFrame) : List RecorderIndexEntry := entriesFrom lib 0 0 frames

/-- The number of the entry is a multiple of the stride. -/
def onStride (stride : ℕ) (e : RecorderIndexEntry) : Bool := e.sequence.toNat % stride = 0

/-- The entry of the last frame, when it is not on the stride. -/
def lastEntry (stride : ℕ) (frames : List ReplayFrame) : List RecorderIndexEntry :=
  ((entries lib frames).getLast?.filter fun e => !onStride stride e).toList

/-- The index of an archive: an entry for every frame on the stride, and one for the last frame. -/
def indexEntries (stride : ℕ) (frames : List ReplayFrame) : List RecorderIndexEntry :=
  (entries lib frames).filter (onStride stride) ++ lastEntry lib stride frames

/-- The replay of an archive. -/
def replayFile (m : RecorderArchiveManifest) (frames : List ReplayFrame) : List UInt8 :=
  utf8 (replayPrefix lib.spell m) ++ (utf8 [',']).intercalate (frames.map lib.frames.write) ++ utf8 "]\x7d\n".toList

/-- The frames of an archive: at finite times that increase, with objects of bounded size. -/
structure Sound (frames : List ReplayFrame) : Prop where
  finite : ∀ f ∈ frames, f.t.isFinite = true
  increasing : (frames.map ReplayFrame.t).IsChain (· < ·)
  object : ∀ f ∈ frames, isObject f.state = true
  bounded : ∀ f ∈ frames, ∃ nodes, boundedJsonNodes f.state 0 0 = .ok nodes

/-- The time from the first frame to the last. -/
def duration (frames : List ReplayFrame) : Float :=
  (frames.getLast?.map ReplayFrame.t).getD 0.0 - (frames.head?.map ReplayFrame.t).getD 0.0

/-- The file is the spelling of the record, which the library reads back from it. -/
structure ReadsPretty {α : Type} (read : List UInt8 → Except String α) (tree : α → Tree (List Char) (List Char))
    (a : α) (bytes : List UInt8) : Prop where
  spelled : bytes = utf8 (newJson (tree a))
  read : read bytes = .ok a
  short : bytes.length ≤ recorderArchiveMetadataReserveBytes

/-- **The content of an archive**: the five files are spelled by a manifest, a receipt and frames that belong to each
other. -/
structure Content (files : ArchiveFiles) (m : RecorderArchiveManifest) (r : RecorderStopReceipt)
    (frames : List ReplayFrame) : Prop where
  manifest : ReadsPretty lib.manifest (RecorderArchiveManifest.tree lib.spell) m files.manifest
  manifestValid : validateManifest lib.spell m = .ok ()
  receipt : ReadsPretty lib.receipt (RecorderStopReceipt.tree lib.spell) r files.receipt
  receiptValid : validateReceipt r m = .ok ()
  framesFile : files.frames = frames.flatMap lib.frames.line
  framesRead : ∀ f ∈ frames, lib.frames.Reads (maxRecorderFrameBytes + 1) f
  framesSound : Sound frames
  indexFile : files.index = (indexEntries lib (indexStride m) frames).flatMap lib.index.line
  indexRead : ∀ e ∈ indexEntries lib (indexStride m) frames, lib.index.Reads 256 e
  frameCount : r.frameCount = frames.length
  durationS : r.durationS = duration frames
  frameDigest : r.frameFileSha256 = lib.sha256Hex files.frames
  indexDigest : r.indexFileSha256 = lib.sha256Hex files.index
  replayDigest : r.replayFileSha256 = lib.sha256Hex files.replay
  replayFile : lib.sha256Hex files.replay = lib.sha256Hex (Recorder.replayFile lib m frames)

/-- The entries of a directory with these files. -/
def ArchiveFiles.entries (files : ArchiveFiles) : List DirEntry :=
  [{ name := some recorderManifestFile, regular := true, bytes := files.manifest },
    { name := some recorderFrameFile, regular := true, bytes := files.frames },
    { name := some recorderIndexFile, regular := true, bytes := files.index },
    { name := some recorderReplayFile, regular := true, bytes := files.replay },
    { name := some recorderReceiptFile, regular := true, bytes := files.receipt }]

/-- The directory holds these files and nothing else, in some order. -/
structure Directory.Holds (directory : Directory) (files : ArchiveFiles) : Prop where
  real : directory.real = true
  entries : directory.entries.Perm files.entries

/-- The length of the five files. -/
def ArchiveFiles.size (files : ArchiveFiles) : ℕ := (files.entries.map fun e => e.bytes.length).sum

/-- The variables of the pass after frames, with what is left of the index. -/
def Pass.after (replay : List UInt8) (stride : ℕ) (frames : List ReplayFrame) (rest : List UInt8) : Pass where
  frameHasher := frames.flatMap lib.frames.line
  indexHasher := ((entries lib frames).filter (onStride stride)).flatMap lib.index.line
  expectedReplayHasher := replay ++ (utf8 [',']).intercalate (frames.map lib.frames.write)
  index := rest
  frameCount := frames.length
  frameOffset := (frames.flatMap lib.frames.line).length
  lastFrameOffset := (frames.dropLast.flatMap lib.frames.line).length
  firstT := frames.head?.map ReplayFrame.t
  lastT := frames.getLast?.map ReplayFrame.t

variable {lib}

/-! ### The index -/

/-- These entries are next in the index. -/
def Takes (lib : Libraries) (p : Pass) (es : List RecorderIndexEntry) (p' : Pass) : Prop :=
  ∃ rest, p.index = es.flatMap lib.index.line ++ rest ∧ (∀ e ∈ es, lib.index.Reads 256 e) ∧
    p' = { p with index := rest, indexHasher := p.indexHasher ++ es.flatMap lib.index.line }

theorem takes_nil {p p' : Pass} : Takes lib p [] p' ↔ p' = p := by
  simp [Takes]

theorem verifyNextIndexEntry_eq_ok {p p' : Pass} {sequence offset : ℕ} {t : Float} (hsequence : sequence < 2 ^ 64) :
    verifyNextIndexEntry lib p sequence t offset = .ok p' ↔
      Takes lib p [{ sequence := .ofNat sequence, t, byteOffset := offset }] p' := by
  have hnat : (UInt64.ofNat sequence).toNat = sequence := UInt64.toNat_ofNat_of_lt' hsequence
  unfold verifyNextIndexEntry Takes
  rw [bind_eq_ok]
  simp only [List.flatMap_singleton, List.forall_mem_singleton]
  constructor
  · rintro ⟨next, hnext, h⟩
    cases next with
    | none => cases h
    | some next =>
      obtain ⟨entry, rest⟩ := next
      obtain ⟨hindex, hentry⟩ := Format.readLine_eq_some hnext
      obtain ⟨hsame, h⟩ := ite_error_eq_ok.mp h
      simp only [not_or, not_not] at hsame
      obtain ⟨hseq, ht, hoffset⟩ := hsame
      obtain rfl : entry = { sequence := .ofNat sequence, t, byteOffset := offset } := by
        obtain ⟨s, t', o⟩ := entry
        dsimp only at hseq ht hoffset
        rw [← hseq, UInt64.ofNat_toNat, ht, hoffset]
      exact ⟨rest, hindex, hentry, (pure_eq_ok.mp h).symm⟩
  · rintro ⟨rest, hindex, hentry, rfl⟩
    refine ⟨_, Format.readLine_eq_some_iff.mpr ⟨hindex, hentry⟩, ?_⟩
    refine ite_error_eq_ok.mpr ⟨?_, rfl⟩
    simp [hnat]

/-- The entry that a frame has to have. -/
def due (stride sequence : ℕ) (t : Float) (offset : ℕ) : List RecorderIndexEntry :=
  [({ sequence := .ofNat sequence, t, byteOffset := offset } : RecorderIndexEntry)].filter (onStride stride)

theorem onStride_ofNat {sequence : ℕ} (h : sequence < 2 ^ 64) (stride : ℕ) (t : Float) (offset : ℕ) :
    onStride stride { sequence := .ofNat sequence, t, byteOffset := offset } = decide (sequence % stride = 0) := by
  rw [onStride, UInt64.toNat_ofNat_of_lt' h]

theorem verifyIndexed_eq_ok {stride : ℕ} {p p' : Pass} {f : ReplayFrame} (h : p.frameCount < 2 ^ 64) :
    verifyIndexed lib stride p f = .ok p' ↔ Takes lib p (due stride p.frameCount f.t p.frameOffset) p' := by
  unfold verifyIndexed due
  rw [List.filter_singleton, onStride_ofNat h]
  by_cases hstride : p.frameCount % stride = 0
  · rw [if_pos hstride, verifyNextIndexEntry_eq_ok h]
    simp [hstride]
  · rw [if_neg hstride]
    simp [hstride, takes_nil, eq_comm]

/-! ### The entries of frames -/

theorem entriesFrom_append (sequence offset : ℕ) (fs : List ReplayFrame) (f : ReplayFrame) :
    entriesFrom lib sequence offset (fs ++ [f]) = entriesFrom lib sequence offset fs ++
      [{ sequence := .ofNat (sequence + fs.length), t := f.t,
         byteOffset := offset + (fs.flatMap lib.frames.line).length }] := by
  induction fs generalizing sequence offset with
  | nil => rfl
  | cons g fs ih =>
    rw [List.cons_append, entriesFrom, ih, entriesFrom, List.length_cons, List.flatMap_cons, List.length_append,
      Nat.add_right_comm sequence 1, Nat.add_assoc offset]
    rfl

theorem entries_append (fs : List ReplayFrame) (f : ReplayFrame) : entries lib (fs ++ [f]) = entries lib fs ++
    [{ sequence := .ofNat fs.length, t := f.t, byteOffset := (fs.flatMap lib.frames.line).length }] := by
  rw [entries, entriesFrom_append, Nat.zero_add, Nat.zero_add]
  rfl

theorem filter_entries_append (stride : ℕ) (fs : List ReplayFrame) (f : ReplayFrame) :
    (entries lib (fs ++ [f])).filter (onStride stride) = (entries lib fs).filter (onStride stride) ++
      due stride fs.length f.t (fs.flatMap lib.frames.line).length := by
  rw [entries_append, List.filter_append]
  rfl

/-! ### The pass -/

theorem intercalate_concat {α : Type} (separator : List α) (ls : List (List α)) (l : List α) :
    separator.intercalate (ls ++ [l]) = separator.intercalate ls ++ (if 0 < ls.length then separator else []) ++ l := by
  induction ls with
  | nil => simp
  | cons a ls ih =>
    cases ls with
    | nil => simp
    | cons b ls =>
      rw [List.cons_append, List.cons_append, List.intercalate_cons_cons, ← List.cons_append, ih,
        List.intercalate_cons_cons]
      simp [List.append_assoc]

theorem Pass.after_nil (replay : List UInt8) (stride : ℕ) (index : List UInt8) :
    Pass.after lib replay stride [] index = { expectedReplayHasher := replay, index } := by
  simp [Pass.after, entries, entriesFrom]

/-- The end of a turn, when the index was looked at. -/
theorem Pass.advance_after (replay : List UInt8) (stride : ℕ) (fs : List ReplayFrame) (f : ReplayFrame)
    (rest rest' : List UInt8) :
    Pass.advance lib { Pass.after lib replay stride fs rest with
      index := rest',
      indexHasher := (Pass.after lib replay stride fs rest).indexHasher ++
        (due stride fs.length f.t (fs.flatMap lib.frames.line).length).flatMap lib.index.line } f =
      Pass.after lib replay stride (fs ++ [f]) rest' := by
  unfold Pass.advance Pass.after
  congr 1
  · simp
  · rw [filter_entries_append, List.flatMap_append]
  · rw [List.map_append, List.map_singleton, intercalate_concat, List.length_map]
    simp only [List.append_assoc]
  · simp
  · simp
  · simp
  · cases fs <;> simp
  · simp

/-- What `verify_archive` checks of a frame, after frames. -/
structure Follows (fs : List ReplayFrame) (f : ReplayFrame) : Prop where
  finite : f.t.isFinite = true
  later : ∀ g ∈ fs.getLast?, ¬f.t ≤ g.t
  object : isObject f.state = true
  bounded : ∃ nodes, boundedJsonNodes f.state 0 0 = .ok nodes

theorem sound_append {fs : List ReplayFrame} {f : ReplayFrame} : Sound (fs ++ [f]) ↔ Sound fs ∧ Follows fs f := by
  have hforall {P : ReplayFrame → Prop} : (∀ g ∈ fs ++ [f], P g) ↔ (∀ g ∈ fs, P g) ∧ P f := by
    rw [List.forall_mem_append, List.forall_mem_singleton]
  have hchain : ((fs ++ [f]).map ReplayFrame.t).IsChain (· < ·) ↔
      (fs.map ReplayFrame.t).IsChain (· < ·) ∧ ∀ g ∈ fs.getLast?, g.t < f.t := by
    rw [List.map_append, List.isChain_append]
    simp
  have hlater (hfinite : ∀ g ∈ fs, g.t.isFinite = true) (hf : f.t.isFinite = true) :
      (∀ g ∈ fs.getLast?, g.t < f.t) ↔ ∀ g ∈ fs.getLast?, ¬f.t ≤ g.t := by
    refine forall₂_congr fun g hg => ?_
    have hg := hfinite g (List.mem_of_getLast? hg)
    rw [float_lt_iff_value hg hf, float_le_iff_value hf hg, not_le]
  constructor
  · rintro ⟨hfinite, hincreasing, hobject, hbounded⟩
    obtain ⟨hfinite, hf⟩ := hforall.mp hfinite
    obtain ⟨hobject, hfobject⟩ := hforall.mp hobject
    obtain ⟨hbounded, hfbounded⟩ := hforall.mp hbounded
    obtain ⟨hincreasing, hlast⟩ := hchain.mp hincreasing
    exact ⟨⟨hfinite, hincreasing, hobject, hbounded⟩, hf, (hlater hfinite hf).mp hlast, hfobject, hfbounded⟩
  · rintro ⟨⟨hfinite, hincreasing, hobject, hbounded⟩, hf, hlast, hfobject, hfbounded⟩
    exact ⟨hforall.mpr ⟨hfinite, hf⟩, hchain.mpr ⟨hincreasing, (hlater hfinite hf).mpr hlast⟩,
      hforall.mpr ⟨hobject, hfobject⟩, hforall.mpr ⟨hbounded, hfbounded⟩⟩

/-- **A turn of the loop**, after frames. -/
theorem verifyFrame_after {replay rest : List UInt8} {stride : ℕ} {fs : List ReplayFrame} {f : ReplayFrame} {p' : Pass}
    (htotal : ((fs ++ [f]).flatMap lib.frames.line).length < 2 ^ 64) :
    verifyFrame lib stride (Pass.after lib replay stride fs rest) f = .ok p' ↔
      fs.length < maxRecorderFrames ∧ Follows fs f ∧ ∃ rest',
        rest = (due stride fs.length f.t (fs.flatMap lib.frames.line).length).flatMap lib.index.line ++ rest' ∧
        (∀ e ∈ due stride fs.length f.t (fs.flatMap lib.frames.line).length, lib.index.Reads 256 e) ∧
        p' = Pass.after lib replay stride (fs ++ [f]) rest' := by
  have hmax : maxRecorderFrames < 2 ^ 64 := by decide
  have htotal' : (fs.flatMap lib.frames.line).length + (lib.frames.line f).length < 2 ^ 64 := by
    simpa using htotal
  have hlater : (∀ g ∈ fs.getLast?, ¬f.t ≤ g.t) ↔
      ¬((Pass.after lib replay stride fs rest).lastT.any fun last => f.t ≤ last) = true := by
    cases hlast : fs.getLast? <;> simp [Pass.after, hlast]
  unfold verifyFrame
  simp only [ite_error_eq_ok, bind_eq_ok, not_or, Bool.not_eq_true', Bool.not_eq_false, not_le]
  constructor
  · rintro ⟨hcount, ⟨hfinite, hlast⟩, hobject, nodes, hnodes, p₁, hp₁, _, hchecked, h⟩
    obtain ⟨rest', hrest, hreads, rfl⟩ := (verifyIndexed_eq_ok (hcount.trans hmax)).mp hp₁
    refine ⟨hcount, ⟨hfinite, hlater.mpr hlast, hobject, nodes, hnodes⟩, rest', hrest, hreads, ?_⟩
    rw [← pure_eq_ok.mp h]
    exact Pass.advance_after replay stride fs f rest rest'
  · rintro ⟨hcount, ⟨hfinite, hlast, hobject, nodes, hnodes⟩, rest', hrest, hreads, rfl⟩
    refine ⟨hcount, ⟨hfinite, hlater.mp hlast⟩, hobject, nodes, hnodes, _,
      (verifyIndexed_eq_ok (hcount.trans hmax)).mpr ⟨rest', hrest, hreads, rfl⟩, _, checked_eq_ok.mpr ⟨htotal', rfl⟩, ?_⟩
    exact pure_eq_ok.mpr (Pass.advance_after replay stride fs f rest rest')

/-- **The loop**: the frames are sound, and the index begins with the entries on the stride. -/
theorem foldlM_verifyFrame {replay index : List UInt8} {stride : ℕ} {frames : List ReplayFrame} {p' : Pass}
    (htotal : (frames.flatMap lib.frames.line).length < 2 ^ 64) :
    frames.foldlM (verifyFrame lib stride) (Pass.after lib replay stride [] index) = .ok p' ↔
      Sound frames ∧ frames.length ≤ maxRecorderFrames ∧ ∃ rest,
        index = ((entries lib frames).filter (onStride stride)).flatMap lib.index.line ++ rest ∧
        (∀ e ∈ (entries lib frames).filter (onStride stride), lib.index.Reads 256 e) ∧
        p' = Pass.after lib replay stride frames rest := by
  induction frames using List.reverseRecOn generalizing p' with
  | nil =>
    have hsound : Sound [] := ⟨by simp, by simp, by simp, by simp⟩
    simp [hsound, entries, entriesFrom, pure, Except.pure, eq_comm]
  | append_singleton fs f ih =>
    have hfs : (fs.flatMap lib.frames.line).length < 2 ^ 64 := by
      refine lt_of_le_of_lt ?_ htotal
      simp
    rw [List.foldlM_append, bind_eq_ok, filter_entries_append, sound_append]
    simp only [List.foldlM_cons, List.foldlM_nil, bind_pure, List.length_append, List.length_singleton,
      List.flatMap_append, List.forall_mem_append]
    constructor
    · rintro ⟨p, hp, h⟩
      obtain ⟨hsound, -, rest, rfl, hreads, rfl⟩ := (ih hfs).mp hp
      obtain ⟨hcount, hfollows, rest', rfl, hdue, rfl⟩ := (verifyFrame_after htotal).mp h
      exact ⟨⟨hsound, hfollows⟩, hcount, rest', (List.append_assoc _ _ _).symm, ⟨hreads, hdue⟩, rfl⟩
    · rintro ⟨⟨hsound, hfollows⟩, hcount, rest', rfl, ⟨hreads, hdue⟩, rfl⟩
      refine ⟨_, (ih hfs).mpr ⟨hsound, Nat.le_of_lt hcount, _, List.append_assoc _ _ _, hreads, rfl⟩, ?_⟩
      exact (verifyFrame_after htotal).mpr ⟨hcount, hfollows, rest', rfl, hdue, rfl⟩

theorem lastEntry_append {fs : List ReplayFrame} (h : fs.length < 2 ^ 64) (stride : ℕ) (f : ReplayFrame) :
    lastEntry lib stride (fs ++ [f]) = if fs.length % stride = 0 then []
      else [{ sequence := .ofNat fs.length, t := f.t, byteOffset := (fs.flatMap lib.frames.line).length }] := by
  rw [lastEntry, entries_append, List.getLast?_concat, Option.filter_some, onStride_ofNat h]
  by_cases hstride : fs.length % stride = 0 <;> simp [hstride]

theorem verifyLastIndexed_after {replay rest : List UInt8} {stride : ℕ} {frames : List ReplayFrame} {p' : Pass}
    (hframes : frames ≠ []) (hcount : frames.length ≤ maxRecorderFrames) :
    verifyLastIndexed lib stride (Pass.after lib replay stride frames rest) = .ok p' ↔
      Takes lib (Pass.after lib replay stride frames rest) (lastEntry lib stride frames) p' := by
  obtain ⟨fs, f, rfl⟩ : ∃ fs f, frames = fs ++ [f] :=
    ⟨frames.dropLast, frames.getLast hframes, (List.dropLast_append_getLast hframes).symm⟩
  have hmax : maxRecorderFrames < 2 ^ 64 := by decide
  have hlength : fs.length < 2 ^ 64 := by
    rw [List.length_append, List.length_singleton] at hcount
    omega
  have hsequence : (Pass.after lib replay stride (fs ++ [f]) rest).frameCount - 1 = fs.length := by
    simp [Pass.after]
  have ht : (Pass.after lib replay stride (fs ++ [f]) rest).lastT.getD 0.0 = f.t := by
    simp [Pass.after]
  have hoffset : (Pass.after lib replay stride (fs ++ [f]) rest).lastFrameOffset =
      (fs.flatMap lib.frames.line).length := by
    simp [Pass.after]
  rw [verifyLastIndexed, hsequence, ht, hoffset, lastEntry_append hlength]
  by_cases h : fs.length % stride = 0
  · rw [if_pos h, if_pos h, takes_nil, Except.ok.injEq, eq_comm]
  · rw [if_neg h, if_neg h, verifyNextIndexEntry_eq_ok hlength]

/-- The variables of the pass at its end. -/
def Pass.final (lib : Libraries) (replay : List UInt8) (stride : ℕ) (frames : List ReplayFrame) : Pass :=
  { Pass.after lib replay stride frames [] with
    indexHasher := (indexEntries lib stride frames).flatMap lib.index.line }

/-- **The end of the index**: an entry for the last frame, unless it has one, and nothing else. -/
theorem verifyIndexEnd_after {replay rest : List UInt8} {stride : ℕ} {frames : List ReplayFrame} {p' : Pass}
    (hframes : frames ≠ []) (hcount : frames.length ≤ maxRecorderFrames) :
    verifyIndexEnd lib stride (Pass.after lib replay stride frames rest) = .ok p' ↔
      rest = (lastEntry lib stride frames).flatMap lib.index.line ∧
        (∀ e ∈ lastEntry lib stride frames, lib.index.Reads 256 e) ∧ p' = Pass.final lib replay stride frames := by
  unfold verifyIndexEnd Pass.final indexEntries
  rw [bind_eq_ok, List.flatMap_append]
  constructor
  · rintro ⟨p₁, hp₁, h⟩
    obtain ⟨rest', hrest, hreads, rfl⟩ := (verifyLastIndexed_after hframes hcount).mp hp₁
    obtain ⟨next, hnext, h⟩ := bind_eq_ok.mp h
    cases next with
    | some next => cases h
    | none =>
      obtain rfl : rest' = [] := Format.readLine_eq_none.mp hnext
      exact ⟨hrest.trans (List.append_nil _), hreads, (pure_eq_ok.mp h).symm⟩
  · rintro ⟨hrest, hreads, rfl⟩
    refine ⟨_, (verifyLastIndexed_after hframes hcount).mpr ⟨[], hrest.trans (List.append_nil _).symm, hreads, rfl⟩, ?_⟩
    exact bind_eq_ok.mpr ⟨none, Format.readLine_eq_none.mpr rfl, rfl⟩

/-! ### The archive -/

theorem readCanonicalPrettyJson_eq_ok {α : Type} {read : List UInt8 → Except String α}
    {tree : α → Tree (List Char) (List Char)} {label : String} {bytes : List UInt8} {a : α} :
    readCanonicalPrettyJson read tree label bytes = .ok a ↔ ReadsPretty read tree a bytes := by
  unfold readCanonicalPrettyJson
  simp only [ite_error_eq_ok, bind_eq_ok, mapError_eq_ok, not_lt, not_not]
  constructor
  · rintro ⟨hshort, _, hread, hspelled, h⟩
    obtain rfl := pure_eq_ok.mp h
    exact ⟨hspelled, hread, hshort⟩
  · rintro ⟨hspelled, hread, hshort⟩
    exact ⟨hshort, a, hread, hspelled, rfl⟩

/-- What the receipt says of the pass. -/
theorem verifyReceipt_eq_ok {r : RecorderStopReceipt} {p : Pass} {replay : List UInt8} :
    verifyReceipt lib r p replay = .ok () ↔ p.frameCount = r.frameCount ∧
      p.lastT.getD 0.0 - p.firstT.getD 0.0 = r.durationS ∧ lib.sha256Hex p.frameHasher = r.frameFileSha256 ∧
      lib.sha256Hex p.indexHasher = r.indexFileSha256 ∧
      lib.sha256Hex (p.expectedReplayHasher ++ utf8 "]\x7d\n".toList) = r.replayFileSha256 ∧
      lib.sha256Hex replay = r.replayFileSha256 := by
  unfold verifyReceipt
  simp only [ite_error_eq_ok, not_not, not_or, and_true]

theorem isFinite_of_validateReceipt {r : RecorderStopReceipt} {m : RecorderArchiveManifest}
    (h : validateReceipt r m = .ok ()) : r.durationS.isFinite = true := by
  unfold validateReceipt at h
  simp only [ite_error_eq_ok, not_or, Bool.not_eq_true', Bool.not_eq_false] at h
  exact h.2.2.1.2.2.2.1

theorem frameCount_of_validateReceipt {r : RecorderStopReceipt} {m : RecorderArchiveManifest}
    (h : validateReceipt r m = .ok ()) : 1 ≤ r.frameCount ∧ r.frameCount ≤ maxRecorderFrames := by
  unfold validateReceipt at h
  simp only [ite_error_eq_ok, not_or, not_lt] at h
  exact ⟨h.2.2.1.2.1, h.2.2.1.2.2.1⟩

/-- The pass over the frames and the index. -/
theorem verifyFrames_eq_ok {frames index replay : List UInt8} {stride : ℕ} {p : Pass} (htotal : frames.length < 2 ^ 64) :
    verifyFrames lib stride { expectedReplayHasher := replay, index } frames = .ok p ↔
      ∃ fs : List ReplayFrame, frames = fs.flatMap lib.frames.line ∧
        (∀ f ∈ fs, lib.frames.Reads (maxRecorderFrameBytes + 1) f) ∧ Sound fs ∧ fs.length ≤ maxRecorderFrames ∧ ∃ rest,
          index = ((entries lib fs).filter (onStride stride)).flatMap lib.index.line ++ rest ∧
          (∀ e ∈ (entries lib fs).filter (onStride stride), lib.index.Reads 256 e) ∧
          p = Pass.after lib replay stride fs rest := by
  unfold verifyFrames
  have hnil : Pass.after lib replay stride [] index = { expectedReplayHasher := replay, index } :=
    Pass.after_nil replay stride index
  rw [Format.foldLines_eq_ok le_rfl, ← hnil]
  refine exists_congr fun fs => ?_
  constructor
  · rintro ⟨rfl, hreads, h⟩
    exact ⟨rfl, hreads, (foldlM_verifyFrame htotal).mp h⟩
  · rintro ⟨rfl, hreads, h⟩
    exact ⟨rfl, hreads, (foldlM_verifyFrame htotal).mpr h⟩

/-- **The files that are accepted**, and the report on them. -/
theorem verifyFiles_eq_ok {files : ArchiveFiles} {size : ℕ} {report : RecorderVerificationReport}
    (htotal : files.frames.length < 2 ^ 64) : verifyFiles lib files size = .ok report ↔
      ∃ m r frames, Content lib files m r frames ∧ report = reportOf lib m r
        (Pass.final lib (utf8 (replayPrefix lib.spell m)) (indexStride m) frames) files.replay size := by
  unfold verifyFiles
  dsimp only
  constructor
  · intro h
    obtain ⟨m, hm, h⟩ := bind_eq_ok.mp h
    obtain ⟨hvalid, h⟩ := check_eq_ok.mp h
    obtain ⟨r, hr, h⟩ := bind_eq_ok.mp h
    obtain ⟨hrvalid, h⟩ := check_eq_ok.mp h
    obtain ⟨p, hp, h⟩ := bind_eq_ok.mp h
    obtain ⟨frames, hframes, hreads, hsound, hcount, rest, hindex, hentries, rfl⟩ := (verifyFrames_eq_ok htotal).mp hp
    obtain ⟨hsome, h⟩ := ite_error_eq_ok.mp h
    have hne : frames ≠ [] := fun hnil => hsome (List.length_eq_zero_iff.mpr hnil)
    obtain ⟨p', hp', h⟩ := bind_eq_ok.mp h
    obtain ⟨rfl, hlast, rfl⟩ := (verifyIndexEnd_after hne hcount).mp hp'
    obtain ⟨hreceipt, h⟩ := check_eq_ok.mp h
    obtain ⟨hlength, hduration, hframe, hindexDigest, hexpected, hreplay⟩ := verifyReceipt_eq_ok.mp hreceipt
    have hfile : files.index = (indexEntries lib (indexStride m) frames).flatMap lib.index.line := by
      rw [indexEntries, List.flatMap_append]
      exact hindex
    refine ⟨m, r, frames, ⟨readCanonicalPrettyJson_eq_ok.mp hm, hvalid, readCanonicalPrettyJson_eq_ok.mp hr, hrvalid,
      hframes, hreads, hsound, hfile, List.forall_mem_append.mpr ⟨hentries, hlast⟩, hlength.symm, hduration.symm, ?_, ?_,
      hreplay.symm, hreplay.trans hexpected.symm⟩, (pure_eq_ok.mp h).symm⟩
    · rw [hframes]
      exact hframe.symm
    · rw [hfile]
      exact hindexDigest.symm
  · rintro ⟨m, r, frames, h, rfl⟩
    obtain ⟨hentries, hlast⟩ := List.forall_mem_append.mp h.indexRead
    obtain ⟨hsome, hcount⟩ := frameCount_of_validateReceipt h.receiptValid
    rw [h.frameCount] at hsome hcount
    have hne : frames ≠ [] := fun hnil => by simp [hnil] at hsome
    have hindex : files.index = ((entries lib frames).filter (onStride (indexStride m))).flatMap lib.index.line ++
        (lastEntry lib (indexStride m) frames).flatMap lib.index.line := by
      rw [← List.flatMap_append]
      exact h.indexFile
    refine bind_eq_ok.mpr ⟨m, readCanonicalPrettyJson_eq_ok.mpr h.manifest, check_eq_ok.mpr ⟨h.manifestValid, ?_⟩⟩
    refine bind_eq_ok.mpr ⟨r, readCanonicalPrettyJson_eq_ok.mpr h.receipt, check_eq_ok.mpr ⟨h.receiptValid, ?_⟩⟩
    refine bind_eq_ok.mpr ⟨_, (verifyFrames_eq_ok htotal).mpr ⟨frames, h.framesFile, h.framesRead, h.framesSound, hcount,
      _, hindex, hentries, rfl⟩, ?_⟩
    refine ite_error_eq_ok.mpr ⟨fun hzero => hne (List.length_eq_zero_iff.mp hzero), ?_⟩
    refine bind_eq_ok.mpr ⟨_, (verifyIndexEnd_after hne hcount).mpr ⟨rfl, hlast, rfl⟩, check_eq_ok.mpr ⟨?_, rfl⟩⟩
    refine verifyReceipt_eq_ok.mpr ⟨h.frameCount.symm, h.durationS.symm, ?_, ?_, ?_, h.replayDigest.symm⟩
    · rw [h.frameDigest, h.framesFile]
      rfl
    · rw [h.indexDigest, h.indexFile]
      rfl
    · rw [h.replayDigest, h.replayFile]
      rfl

/-! ### The directory -/

theorem observeEntry_eq_ok {size size' : ℕ} {seen seen' : List String} {e : DirEntry} :
    observeEntry (size, seen) e = .ok (size', seen') ↔ ∃ name ∈ expectedFiles, e.name = some name ∧ e.regular = true ∧
      size' < 2 ^ 64 ∧ size' = size + e.bytes.length ∧ seen' = seen ++ [name] := by
  unfold observeEntry
  cases e.name with
  | none => simp
  | some name =>
    simp only [ite_error_eq_ok, not_not, Bool.not_eq_true', Bool.not_eq_false, bind_eq_ok, checked_eq_ok, pure_eq_ok,
      Option.some.injEq, Prod.mk.injEq]
    constructor
    · rintro ⟨hname, hregular, _, ⟨hsize, rfl⟩, rfl, rfl⟩
      exact ⟨name, hname, rfl, hregular, hsize, rfl, rfl⟩
    · rintro ⟨_, hname, rfl, hregular, hsize, rfl, rfl⟩
      exact ⟨hname, hregular, _, ⟨hsize, rfl⟩, rfl, rfl⟩

/-- **The loop over the entries**. -/
theorem foldlM_observeEntry {entries : List DirEntry} {size size' : ℕ} {seen seen' : List String}
    (hsize : size < 2 ^ 64) : entries.foldlM observeEntry (size, seen) = .ok (size', seen') ↔
      ∃ names : List String, entries.map DirEntry.name = names.map some ∧ (∀ name ∈ names, name ∈ expectedFiles) ∧
        (∀ e ∈ entries, e.regular = true) ∧ size' < 2 ^ 64 ∧ size' = size + (entries.map fun e => e.bytes.length).sum ∧
        seen' = seen ++ names := by
  induction entries generalizing size seen with
  | nil =>
    simp only [List.foldlM_nil, pure_eq_ok, List.map_nil, Prod.mk.injEq]
    constructor
    · rintro ⟨rfl, rfl⟩
      exact ⟨[], rfl, by simp, by simp, hsize, rfl, (List.append_nil _).symm⟩
    · rintro ⟨names, hnames, -, -, -, rfl, rfl⟩
      obtain rfl := List.map_eq_nil_iff.mp hnames.symm
      exact ⟨rfl, (List.append_nil _).symm⟩
  | cons e entries ih =>
    rw [List.foldlM_cons, bind_eq_ok, List.map_cons, List.map_cons, List.sum_cons, ← Nat.add_assoc]
    constructor
    · rintro ⟨⟨size₁, seen₁⟩, hfirst, h⟩
      obtain ⟨name, hname, hname', hregular, hsize₁, rfl, rfl⟩ := observeEntry_eq_ok.mp hfirst
      obtain ⟨names, hnames, hexpected, hregulars, hbound, rfl, rfl⟩ := (ih hsize₁).mp h
      refine ⟨name :: names, by rw [hname', hnames, List.map_cons], List.forall_mem_cons.mpr ⟨hname, hexpected⟩,
        List.forall_mem_cons.mpr ⟨hregular, hregulars⟩, hbound, rfl, ?_⟩
      rw [List.append_assoc]
      rfl
    · rintro ⟨names, hnames, hexpected, hregulars, hbound, rfl, rfl⟩
      cases names with
      | nil => cases hnames
      | cons name names =>
        obtain ⟨hname, hnames⟩ := List.cons.inj hnames
        obtain ⟨hexpected, hexpecteds⟩ := List.forall_mem_cons.mp hexpected
        obtain ⟨hregular, hregulars⟩ := List.forall_mem_cons.mp hregulars
        have hsize₁ : size + e.bytes.length < 2 ^ 64 := (Nat.le_add_right _ _).trans_lt hbound
        refine ⟨(_, seen ++ [name]), observeEntry_eq_ok.mpr ⟨name, hexpected, hname, hregular, hsize₁, rfl, rfl⟩, ?_⟩
        refine (ih hsize₁).mpr ⟨names, hnames, hexpecteds, hregulars, hbound, rfl, ?_⟩
        rw [List.append_assoc]
        rfl

/-- The names of the entries are those of the five files, in some order. -/
structure Directory.Named (directory : Directory) : Prop where
  real : directory.real = true
  names : (directory.entries.map DirEntry.name).Perm (expectedFiles.map some)
  regular : ∀ e ∈ directory.entries, e.regular = true

theorem archiveFileLengths_eq_ok {directory : Directory} {size : ℕ} : archiveFileLengths directory = .ok size ↔
    directory.Named ∧ size = (directory.entries.map fun e => e.bytes.length).sum ∧ size ≤ maxRecorderArchiveBytes := by
  have hmax : maxRecorderArchiveBytes < 2 ^ 64 := by decide
  unfold archiveFileLengths
  simp only [ite_error_eq_ok, bind_eq_ok, Bool.not_eq_true', Bool.not_eq_false]
  constructor
  · rintro ⟨hreal, ⟨total, observed⟩, hfold, hperm, hcap, h⟩
    obtain ⟨names, hnames, -, hregular, -, rfl, rfl⟩ := (foldlM_observeEntry (by decide)).mp hfold
    obtain rfl := pure_eq_ok.mp h
    refine ⟨⟨hreal, ?_, hregular⟩, Nat.zero_add _, not_lt.mp hcap⟩
    rw [hnames]
    exact (not_not.mp hperm).map some
  · rintro ⟨⟨hreal, hperm, hregular⟩, rfl, hcap⟩
    have hnames : directory.entries.map DirEntry.name = (directory.entries.map fun e => e.name.getD "").map some := by
      rw [List.map_map]
      refine List.map_congr_left fun e he => ?_
      obtain ⟨name, -, hname⟩ := List.mem_map.mp (hperm.subset (List.mem_map_of_mem he))
      simp [← hname]
    rw [hnames, List.map_perm_map_iff (Option.some_injective _)] at hperm
    refine ⟨hreal, (_, _), (foldlM_observeEntry (by decide)).mpr
      ⟨_, hnames, fun name hname => hperm.subset hname, hregular, hcap.trans_lt hmax, (Nat.zero_add _).symm, rfl⟩, ?_⟩
    exact ⟨not_not.mpr hperm, not_lt.mpr hcap, rfl⟩

theorem nodup_expectedFiles : (expectedFiles.map some).Nodup := by decide

theorem Directory.read_eq_ok {directory : Directory} (h : directory.Named) {name label : String} {bytes : List UInt8} :
    directory.read name label = .ok bytes ↔ { name := some name, regular := true, bytes } ∈ directory.entries := by
  have hnodup : (directory.entries.map DirEntry.name).Nodup := h.names.nodup_iff.mpr nodup_expectedFiles
  unfold Directory.read
  constructor
  · intro hread
    cases hfind : Table.find DirEntry.name (some name) directory.entries with
    | none => simp [hfind] at hread
    | some e =>
      simp only [hfind, Except.ok.injEq] at hread
      obtain ⟨hmem, hname⟩ := Table.find_some hfind
      obtain ⟨_, _, _⟩ := e
      obtain rfl := hread
      obtain rfl := hname
      obtain rfl : _ = true := h.regular _ hmem
      exact hmem
  · intro hmem
    rw [(Table.find_eq_some_iff hnodup).mpr ⟨hmem, rfl⟩]

/-- **The files of a directory** that has them and nothing else. -/
theorem Directory.files_eq_ok {directory : Directory} {files : ArchiveFiles} :
    directory.Named ∧ directory.files = .ok files ↔ directory.Holds files := by
  constructor
  · rintro ⟨hnamed, hfiles⟩
    refine ⟨hnamed.real, ?_⟩
    unfold Directory.files at hfiles
    simp only [bind_eq_ok, Directory.read_eq_ok hnamed, pure_eq_ok] at hfiles
    obtain ⟨_, hmanifest, _, hreceipt, _, hframes, _, hindex, _, hreplay, rfl⟩ := hfiles
    have hnodup : (directory.entries.map DirEntry.name).Nodup := hnamed.names.nodup_iff.mpr nodup_expectedFiles
    refine (List.Subperm.perm_of_length_le ?_ ?_).symm
    · refine List.Nodup.subperm (List.Nodup.of_map DirEntry.name nodup_expectedFiles) fun e he => ?_
      simp only [ArchiveFiles.entries, List.mem_cons, List.not_mem_nil, or_false] at he
      rcases he with rfl | rfl | rfl | rfl | rfl
      · exact hmanifest
      · exact hframes
      · exact hindex
      · exact hreplay
      · exact hreceipt
    · have hlength := hnamed.names.length_eq
      rw [List.length_map, List.length_map] at hlength
      exact hlength.le
  · rintro ⟨hreal, hperm⟩
    have hnamed : directory.Named := by
      refine ⟨hreal, hperm.map DirEntry.name, fun e he => ?_⟩
      have he := hperm.subset he
      simp only [ArchiveFiles.entries, List.mem_cons, List.not_mem_nil, or_false] at he
      rcases he with rfl | rfl | rfl | rfl | rfl <;> rfl
    refine ⟨hnamed, ?_⟩
    unfold Directory.files
    simp only [bind_eq_ok, Directory.read_eq_ok hnamed, pure_eq_ok, hperm.mem_iff]
    refine ⟨_, ?_, _, ?_, _, ?_, _, ?_, _, ?_, rfl⟩ <;> simp [ArchiveFiles.entries]

theorem ArchiveFiles.frames_le_size (files : ArchiveFiles) : files.frames.length ≤ files.size := by
  simp only [ArchiveFiles.size, ArchiveFiles.entries, List.map_cons, List.map_nil, List.sum_cons, List.sum_nil]
  omega

/-- What the report of a verification says. -/
def contentReport (lib : Libraries) (files : ArchiveFiles) (m : RecorderArchiveManifest) (r : RecorderStopReceipt)
    (frames : List ReplayFrame) : RecorderVerificationReport :=
  reportOf lib m r (Pass.final lib (utf8 (replayPrefix lib.spell m)) (indexStride m) frames) files.replay files.size

theorem size_of_holds {directory : Directory} {files : ArchiveFiles} (h : directory.Holds files) :
    (directory.entries.map fun e => e.bytes.length).sum = files.size := (h.entries.map _).sum_eq

theorem frames_lt {files : ArchiveFiles} (h : files.size ≤ maxRecorderArchiveBytes) : files.frames.length < 2 ^ 64 := by
  have hmax : maxRecorderArchiveBytes < 2 ^ 64 := by decide
  exact (files.frames_le_size.trans h).trans_lt hmax

/-- **What is accepted** has a content. -/
theorem verifyArchive_accepts {directory : Directory} {report : RecorderVerificationReport}
    (h : verifyArchive lib directory = .ok report) : ∃ files, directory.Holds files ∧
      files.size ≤ maxRecorderArchiveBytes ∧ ∃ m r frames, Content lib files m r frames ∧
        report = contentReport lib files m r frames := by
  unfold verifyArchive at h
  obtain ⟨size, hlengths, h⟩ := bind_eq_ok.mp h
  obtain ⟨files, hfiles, h⟩ := bind_eq_ok.mp h
  obtain ⟨_, hverify, h⟩ := bind_eq_ok.mp h
  obtain ⟨-, h⟩ := ite_error_eq_ok.mp h
  obtain rfl := pure_eq_ok.mp h
  obtain ⟨hnamed, rfl, hcap⟩ := archiveFileLengths_eq_ok.mp hlengths
  have hholds := Directory.files_eq_ok.mp ⟨hnamed, hfiles⟩
  rw [size_of_holds hholds] at hcap hverify
  exact ⟨files, hholds, hcap, (verifyFiles_eq_ok (frames_lt hcap)).mp hverify⟩

/-- **What has a content** is accepted. -/
theorem verifyArchive_of_content {directory : Directory} {files : ArchiveFiles} {m : RecorderArchiveManifest}
    {r : RecorderStopReceipt} {frames : List ReplayFrame} (hholds : directory.Holds files)
    (hcap : files.size ≤ maxRecorderArchiveBytes) (h : Content lib files m r frames) :
    verifyArchive lib directory = .ok (contentReport lib files m r frames) := by
  obtain ⟨hnamed, hfiles⟩ := Directory.files_eq_ok.mpr hholds
  have hlengths : archiveFileLengths directory = .ok files.size :=
    archiveFileLengths_eq_ok.mpr ⟨hnamed, (size_of_holds hholds).symm, hcap⟩
  have hverify : verifyFiles lib files files.size = .ok (contentReport lib files m r frames) :=
    (verifyFiles_eq_ok (frames_lt hcap)).mpr ⟨m, r, frames, h, rfl⟩
  refine bind_eq_ok.mpr ⟨_, hlengths, bind_eq_ok.mpr ⟨files, hfiles, bind_eq_ok.mpr ⟨_, hverify, ?_⟩⟩⟩
  exact ite_error_eq_ok.mpr ⟨not_not.mpr hlengths, rfl⟩

/-- **Key result**: the directories that the verifier accepts, and the report on them. They hold the five files of an
archive, of at most 512 megabytes, and nothing else. -/
theorem verifyArchive_ok_iff (lib : Libraries) (directory : Directory) (report : RecorderVerificationReport) :
    verifyArchive lib directory = .ok report ↔ ∃ files, directory.Holds files ∧ files.size ≤ maxRecorderArchiveBytes ∧
      ∃ m r frames, Content lib files m r frames ∧ report = contentReport lib files m r frames :=
  ⟨verifyArchive_accepts, fun ⟨_, hholds, hcap, _, _, _, h, hreport⟩ =>
    hreport ▸ verifyArchive_of_content hholds hcap h⟩

end Forge.Validate.Recorder
