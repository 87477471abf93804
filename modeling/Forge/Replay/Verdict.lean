import Forge.Data.Except
import Forge.Json.Access

/-!
# Replay verdicts

A replay tape is judged twice: by the gateway (`verifyReplayTape`, `platform.ts`) and
by a worker (`verify_replay`, `replay.py`). Both hash the tape's canonical JSON, check
that its frames are in strict time order and compare the hashes that the request
expects.

They agree on the structure of a tape, but the worker also bounds the tape, looks at
its format version and takes an expectation that is the empty string seriously, and
the two canonical texts are not the same function of the tape. `verdictsAgree_iff`
says for which tapes and requests the verdicts agree.
-/

namespace Forge.Replay

/-! ### Tapes -/

/-- The header of a tape, or an empty one. -/
def headerOf (tape : Doc) : Doc :=
  match member "header" tape with
  | some (.object ms) => .object ms
  | _ => .object []

/-! ### Frames -/

/-- The texts of the structural reject reasons. -/
structure FrameErrors where
  noTape : String
  noFrames : String
  badFrame : String

/-- The time of a frame: a finite number. -/
def frameTime (errors : FrameErrors) (frame : Doc) : Except String Float :=
  match member "t" frame with
  | some (.leaf (.number n)) => if n.toDouble.isFinite then .ok n.toDouble else .error errors.badFrame
  | _ => .error errors.badFrame

/-- The times of the frames of a tape. -/
def frameTimes (errors : FrameErrors) (tape : Doc) : Except String (List Float) :=
  if isRecord tape then
    match member "frames" tape with
    | some (.array (f :: fs)) => (f :: fs).mapM (frameTime errors)
    | _ => .error errors.noFrames
  else .error errors.noTape

/-- Strictly increasing, each time compared with the one before. -/
def monotonic : List Float → Bool
  | a :: b :: ts => a < b && monotonic (b :: ts)
  | _ => true

/-- The time from the first frame to the last. -/
def span (times : List Float) : Float := times.getLastD 0.0 - times.headD 0.0

/-! ### The gateway -/

/-- What a request expects of a tape. -/
structure ReplayOptions where
  expectedHash : Option CodeUnits
  expectedContractHash : Option CodeUnits
  courseId : Option CodeUnits
deriving DecidableEq

structure ReplayVerification where
  verified : Bool
  tamperHash : Option CodeUnits
  frameCount : ℕ
  durationS : Float
  header : Doc
  courseId : Option CodeUnits
  rejectReason : Option String

def gatewayErrors : FrameErrors where
  noTape := "replay.verify requires tape object"
  noFrames := "replay tape requires non-empty frames"
  badFrame := "replay frames must be objects with numeric t"

def numericFrameTimes (tape : Doc) : Except String (List Float) := frameTimes gatewayErrors tape

/-- `Math.max` -/
def mathMax (x y : Float) : Float :=
  if x.isNaN || y.isNaN then 0.0 / 0.0
  else if x < y then y
  else if y < x then x
  else if signBit x then y
  else x

/-- An expectation that is missing or empty is met by everything. -/
def expectationMet (expected : Option CodeUnits) (actual : Option CodeUnits) : Bool :=
  match expected with
  | none | some [] => true
  | some e => actual = some e

/-- The first of the three checks that fails. -/
def rejectReason (times : List Float) (hashOk contractOk : Bool) : Option String :=
  if monotonic times = false then some "replay timestamps are not strictly increasing"
  else if hashOk = false then some "replay hash mismatch"
  else if contractOk = false then some "contract hash mismatch"
  else none

/-- `verifyReplayTape` -/
def verifyReplayTape (sha256 : Sha256) (tape : JsonValue) (options : ReplayOptions) : ReplayVerification :=
  let header := headerOf tape.val
  match numericFrameTimes tape.val with
  | .error reason =>
    { verified := false, tamperHash := none, frameCount := 0, durationS := 0.0, header, courseId := options.courseId,
      rejectReason := some reason }
  | .ok times =>
    let tamperHash := sha256.digest (stableJson tape.val)
    let reason := rejectReason times (expectationMet options.expectedHash (some tamperHash))
      (expectationMet options.expectedContractHash (stringMember "contractHash" header))
    { verified := reason.isNone, tamperHash := some tamperHash, frameCount := times.length,
      durationS := mathMax 0.0 (span times), header, courseId := options.courseId, rejectReason := reason }

/-! ### The worker -/

/-- The part of a worker's payload that `verify_replay` reads. -/
structure ReplayPayload extends ReplayOptions where
  tape : JsonValue
  archetype : Option CodeUnits
  className : Option CodeUnits
  «class» : Option CodeUnits
  modelId : Option CodeUnits
  policyId : Option CodeUnits

/-- `_leaderboard_dimensions` -/
structure LeaderboardDimensions where
  courseId : Option CodeUnits
  archetype : Option CodeUnits
  «class» : Option CodeUnits
  modelId : Option CodeUnits
  policyId : Option CodeUnits
  contractHash : Option CodeUnits

/-- Why a worker does not verify a tape. -/
inductive RejectReason where
  | unsupportedVersion (schemaVersion : Option Doc)
  | hashMismatch
  | notIncreasing
  | contractMismatch

structure ReplayResult where
  schemaVersion : Doc
  verified : Bool
  tamperHash : CodeUnits
  frameCount : ℕ
  durationS : Float
  header : Doc
  dimensions : LeaderboardDimensions
  rejectReason : Option RejectReason

def workerErrors : FrameErrors where
  noTape := "replay.verify requires tape object"
  noFrames := "replay tape requires non-empty frames"
  badFrame := "replay frames must be objects with finite numeric t"

/-- `LEGACY_REPLAY_FORMAT_VERSION` -/
def legacyFormatVersion : CodeUnits := units "replay.v1"

/-- `REPLAY_FORMAT_VERSION` -/
def replayFormatVersion : CodeUnits := units "1.0.0"

def isDigits (part : CodeUnits) : Bool := part ≠ [] && part.all fun u => 0x30 ≤ u && u ≤ 0x39

/-- `_same_semver_major` of a string. -/
def sameSemverMajor (value expected : CodeUnits) : Bool :=
  let parts := value.splitOn 0x2E
  parts.length = 3 && parts.all isDigits && parts.head? = (expected.splitOn 0x2E).head?

/-- No version, the legacy alias, or a version of the same major. -/
def formatOk : Option Doc → Bool
  | none | some (.leaf .null) => true
  | some (.leaf (.string s)) => s = legacyFormatVersion || sameSemverMajor s replayFormatVersion
  | some _ => false

/-- Whether Python counts a value as true. -/
def truthy : Doc → Bool
  | .leaf .null => false
  | .leaf (.bool b) => b
  | .leaf (.number n) => match n with
    | .int i => i ≠ 0
    | .decimal x => x != 0.0
  | .leaf (.string s) => s ≠ []
  | .array ts => !ts.isEmpty
  | .object ms => !ms.isEmpty

/-- `_first_string` -/
def firstString (values : List (Option CodeUnits)) : Option CodeUnits :=
  (values.filterMap id).find? fun s => s ≠ []

/-- A number that `json.dumps` writes: no infinity, and no integer of more than 4300 digits. -/
def dumpable : Numeral → Bool
  | .int i => (Nat.toDigits 10 i.natAbs).length ≤ 4300
  | .decimal x => x.isFinite

/-- What `assert_bounded_json` asks of each value. -/
def Admissible : Doc → Prop
  | .leaf (.number n) => dumpable n = true
  | .leaf _ => True
  | .array ts => ts.length ≤ 10000
  | .object ms => ms.length ≤ 2000 ∧ ∀ e ∈ ms, e.1 ∉ forbiddenKeys

instance : DecidablePred Admissible
  | .leaf (.number n) => inferInstanceAs (Decidable (dumpable n = true))
  | .leaf .null | .leaf (.bool _) | .leaf (.string _) => isTrue trivial
  | .array ts => inferInstanceAs (Decidable (ts.length ≤ 10000))
  | .object ms => inferInstanceAs (Decidable (ms.length ≤ 2000 ∧ ∀ e ∈ ms, e.1 ∉ forbiddenKeys))

/-- `assert_bounded_json` of a tape: at most 4 MiB, 100000 values and 32 levels. -/
def Bounded (d : Doc) : Prop :=
  d.Everywhere Admissible ∧ utf8Size (jsonDumps d) ≤ 4 * 1024 * 1024 ∧ d.nodes ≤ 100000 ∧ d.depth ≤ 32

instance : DecidablePred Bounded := fun d =>
  inferInstanceAs (Decidable (d.Everywhere Admissible ∧ utf8Size (jsonDumps d) ≤ 4 * 1024 * 1024 ∧
    d.nodes ≤ 100000 ∧ d.depth ≤ 32))

/-- `max(0.0, x)` -/
def pyMax (x : Float) : Float := if 0.0 < x then x else 0.0

/-- `None`, or equal. -/
def expectedIn (expected : Option CodeUnits) (actual : Option CodeUnits) : Bool :=
  expected = none || expected = actual

/-- `_leaderboard_dimensions` -/
def leaderboardDimensions (payload : ReplayPayload) (header : Doc) : LeaderboardDimensions where
  courseId := firstString [payload.courseId, stringMember "courseId" header,
    (member "env" header).bind (stringMember "courseId")]
  archetype := firstString [payload.archetype, stringMember "archetype" header, stringMember "modelArchetype" header,
    stringMember "contractArchetype" header]
  «class» := firstString [payload.«class», payload.className, stringMember "class" header,
    stringMember "modelClass" header, stringMember "boardClass" header]
  modelId := firstString [payload.modelId, stringMember "modelId" header]
  policyId := firstString [payload.policyId, stringMember "policyId" header]
  contractHash := firstString [stringMember "contractHash" header]

/-- Why a worker does not verify a tape, if it does not. -/
def workerReason (schemaVersion : Option Doc) (times : List Float) (hashOk contractOk : Bool) : Option RejectReason :=
  if formatOk schemaVersion = false then some (.unsupportedVersion schemaVersion)
  else if hashOk = false then some .hashMismatch
  else if monotonic times = false then some .notIncreasing
  else if contractOk = false then some .contractMismatch
  else none

/-- `verify_replay` of a tape whose frames have these times. -/
def replayResult (sha256 : Sha256) (payload : ReplayPayload) (times : List Float) : ReplayResult :=
  let tape := payload.tape.val
  let digest := sha256.digest (jsonDumps tape)
  let schemaVersion := member "schemaVersion" tape
  let header := headerOf tape
  let hashOk := expectedIn payload.expectedHash (some digest)
  let contractOk := expectedIn payload.expectedContractHash (stringMember "contractHash" header)
  { schemaVersion := (schemaVersion.filter truthy).getD (.leaf (.string legacyFormatVersion))
    verified := hashOk && monotonic times && contractOk && formatOk schemaVersion
    tamperHash := digest
    frameCount := times.length
    durationS := pyMax (span times)
    header
    dimensions := leaderboardDimensions payload header
    rejectReason := workerReason schemaVersion times hashOk contractOk }

/-- `verify_replay` -/
def verifyReplay (sha256 : Sha256) (payload : ReplayPayload) : Except String ReplayResult :=
  match frameTimes workerErrors payload.tape.val with
  | .error e => .error e
  | .ok times =>
    if Bounded payload.tape.val then .ok (replayResult sha256 payload times)
    else .error "replay tape is not bounded JSON"

/-! ### Agreement -/

/-- The reject reasons that are about the structure of a tape. -/
def structuralReasons : List String := [gatewayErrors.noTape, gatewayErrors.noFrames, gatewayErrors.badFrame]

/-- The worker raises exactly on a structural reject reason, and otherwise finds what the gateway finds. -/
structure VerdictsAgree (sha256 : Sha256) (payload : ReplayPayload) : Prop where
  raises : (∃ e, verifyReplay sha256 payload = .error e) ↔
    ∃ r ∈ structuralReasons, (verifyReplayTape sha256 payload.tape payload.toReplayOptions).rejectReason = some r
  finds : ∀ r, verifyReplay sha256 payload = .ok r →
    r.verified = (verifyReplayTape sha256 payload.tape payload.toReplayOptions).verified ∧
    some r.tamperHash = (verifyReplayTape sha256 payload.tape payload.toReplayOptions).tamperHash ∧
    r.frameCount = (verifyReplayTape sha256 payload.tape payload.toReplayOptions).frameCount ∧
    r.durationS = (verifyReplayTape sha256 payload.tape payload.toReplayOptions).durationS

/-- What only the worker refuses: an unsupported version, and an expectation that is the empty string. -/
def WorkerOnly (payload : ReplayPayload) : Prop :=
  formatOk (member "schemaVersion" payload.tape.val) = false ∨ payload.expectedHash = some [] ∨
    (payload.expectedContractHash = some [] ∧ stringMember "contractHash" (headerOf payload.tape.val) ≠ some [])

/-- The three checks of the gateway. -/
def passesGateway (sha256 : Sha256) (payload : ReplayPayload) (times : List Float) : Bool :=
  monotonic times && expectationMet payload.expectedHash (some (sha256.digest (stableJson payload.tape.val))) &&
    expectationMet payload.expectedContractHash (stringMember "contractHash" (headerOf payload.tape.val))

/-- A tape with sound frames is within the worker's bounds, holds only what both languages write alike, and is
not one that passes the checks of the gateway and fails those that only the worker makes. -/
def Agreeable (sha256 : Sha256) (payload : ReplayPayload) : Prop :=
  ∀ times, numericFrameTimes payload.tape.val = .ok times →
    Bounded payload.tape.val ∧ payload.tape.val.Everywhere Plainly ∧
      ¬ (WorkerOnly payload ∧ passesGateway sha256 payload times = true)

/-- Frames are sound or not whoever looks at them. -/
theorem frameTime_ok {E F : FrameErrors} {frame : Doc} {t : Float} (h : frameTime E frame = .ok t) :
    frameTime F frame = .ok t ∧ t.isFinite = true := by
  unfold frameTime at h ⊢
  split at h
  · split at h
    · rename_i hfin
      cases h
      exact ⟨if_pos hfin, hfin⟩
    · cases h
  · cases h

theorem frameTime_error {E : FrameErrors} {frame : Doc} {e : String} (h : frameTime E frame = .error e) :
    e = E.badFrame := by
  unfold frameTime at h
  split at h
  · split at h <;> cases h
    rfl
  · cases h
    rfl

theorem frameTimes_ok {E F : FrameErrors} {tape : Doc} {times : List Float} (h : frameTimes E tape = .ok times) :
    frameTimes F tape = .ok times ∧ times ≠ [] ∧ ∀ t ∈ times, t.isFinite = true := by
  unfold frameTimes at h ⊢
  split at h
  · rename_i hrecord
    rw [if_pos hrecord]
    split at h
    · rename_i f fs _
      have hall := mapM_eq_ok.mp h
      refine ⟨mapM_eq_ok.mpr (hall.imp fun _ _ h => (frameTime_ok h).1), ?_, ?_⟩
      · rintro rfl
        cases hall
      · exact forall_mem_of_mapM_eq_ok (fun h => (frameTime_ok (F := F) h).2) h
    · cases h
  · cases h

theorem frameTimes_error {E : FrameErrors} {tape : Doc} {e : String} (h : frameTimes E tape = .error e) :
    e ∈ [E.noTape, E.noFrames, E.badFrame] := by
  unfold frameTimes at h
  split at h
  · split at h
    · obtain ⟨frame, -, hframe⟩ := exists_of_mapM_eq_error h
      rw [frameTime_error hframe]
      simp
    · cases h
      simp
  · cases h
    simp

/-! ### The checks -/

/-- An expectation that the worker finds met is met for the gateway, and the other way round unless it is
empty. -/
theorem expectedIn_iff {expected actual : Option CodeUnits} :
    expectedIn expected actual = true ↔
      expectationMet expected actual = true ∧ ¬ (expected = some [] ∧ actual ≠ some []) := by
  cases expected with
  | none => simp [expectedIn, expectationMet]
  | some e =>
    cases e with
    | nil => simp [expectedIn, expectationMet, eq_comm]
    | cons u us => simp [expectedIn, expectationMet, eq_comm]

theorem rejectReason_isNone (times : List Float) (hashOk contractOk : Bool) :
    (rejectReason times hashOk contractOk).isNone = (monotonic times && hashOk && contractOk) := by
  unfold rejectReason
  cases monotonic times <;> cases hashOk <;> cases contractOk <;> rfl

/-- The checks of the gateway have reasons of their own. -/
theorem rejectReason_not_structural {times : List Float} {hashOk contractOk : Bool} {r : String}
    (h : rejectReason times hashOk contractOk = some r) : r ∉ structuralReasons := by
  unfold rejectReason at h
  split_ifs at h <;> (cases h; decide)

/-- Both take the greater of zero and a number. -/
theorem mathMax_eq_pyMax {x : Float} (h : x.isNaN = false) : mathMax 0.0 x = pyMax x := by
  have hzero : (0.0 : Float).isNaN = false := by decide
  have hsign : signBit 0.0 = false := by decide
  unfold mathMax pyMax
  rw [hzero, h, hsign]
  simp only [Bool.or_self, Bool.false_eq_true, if_false]
  split_ifs <;> rfl

/-- The time between finite frames is a number. -/
theorem span_isNaN {times : List Float} (hne : times ≠ []) (h : ∀ t ∈ times, t.isFinite = true) :
    (span times).isNaN = false := by
  cases times with
  | nil => exact absurd rfl hne
  | cons t ts =>
    have hlast : (t :: ts).getLastD 0.0 ∈ t :: ts := by
      rw [List.getLastD_cons]
      exact List.getLastD_mem_cons
    exact isNaN_sub (h _ hlast) (h t List.mem_cons_self)

/-! ### When the verdicts agree -/

section

variable {sha256 : Sha256} {payload : ReplayPayload} {times : List Float}

variable (sha256 payload) in
theorem verifyReplay_ok (h : numericFrameTimes payload.tape.val = .ok times) :
    verifyReplay sha256 payload =
      if Bounded payload.tape.val then .ok (replayResult sha256 payload times)
      else .error "replay tape is not bounded JSON" := by
  have hworker : frameTimes workerErrors payload.tape.val = .ok times := (frameTimes_ok h).1
  simp only [verifyReplay, hworker]

variable (sha256 payload) in
/-- The verdict of the gateway on a tape with sound frames. -/
theorem verifyReplayTape_ok (h : numericFrameTimes payload.tape.val = .ok times) :
    (verifyReplayTape sha256 payload.tape payload.toReplayOptions).verified = passesGateway sha256 payload times ∧
    (verifyReplayTape sha256 payload.tape payload.toReplayOptions).tamperHash =
      some (sha256.digest (stableJson payload.tape.val)) ∧
    (verifyReplayTape sha256 payload.tape payload.toReplayOptions).frameCount = times.length ∧
    (verifyReplayTape sha256 payload.tape payload.toReplayOptions).durationS = pyMax (span times) ∧
    ∀ r ∈ structuralReasons,
      (verifyReplayTape sha256 payload.tape payload.toReplayOptions).rejectReason ≠ some r := by
  obtain ⟨-, hne, hfin⟩ := frameTimes_ok (F := workerErrors) h
  unfold verifyReplayTape
  rw [h]
  refine ⟨rejectReason_isNone _ _ _, rfl, rfl, mathMax_eq_pyMax (span_isNaN hne hfin), fun r hr heq => ?_⟩
  exact rejectReason_not_structural heq hr

/-- A worker that has the same digest verifies what passes the gateway, but for what only it refuses. -/
theorem replayResult_verified (hsame : sha256.digest (jsonDumps payload.tape.val) =
    sha256.digest (stableJson payload.tape.val)) :
    (replayResult sha256 payload times).verified = true ↔
      passesGateway sha256 payload times = true ∧ ¬ WorkerOnly payload := by
  simp only [replayResult, hsame, Bool.and_eq_true, expectedIn_iff, passesGateway, WorkerOnly]
  have hdigest : some (sha256.digest (stableJson payload.tape.val)) ≠ some [] := fun h =>
    sha256.nonempty _ (Option.some.inj h)
  constructor
  · rintro ⟨⟨⟨⟨hhash, hhash'⟩, hmono⟩, hcontract, hcontract'⟩, hformat⟩
    refine ⟨⟨⟨hmono, hhash⟩, hcontract⟩, ?_⟩
    rintro (hf | he | he)
    · rw [hformat] at hf
      cases hf
    · exact hhash' ⟨he, hdigest⟩
    · exact hcontract' he
  · rintro ⟨⟨⟨hmono, hhash⟩, hcontract⟩, hworker⟩
    refine ⟨⟨⟨⟨hhash, fun h => hworker (.inr (.inl h.1))⟩, hmono⟩, hcontract, fun h => hworker (.inr (.inr h))⟩, ?_⟩
    cases hformat : formatOk (member "schemaVersion" payload.tape.val) with
    | true => rfl
    | false => exact absurd (.inl hformat) hworker

end

/-- **The verdicts agree exactly where the tape is agreeable.** -/
theorem verdictsAgree_iff (sha256 : Sha256) (payload : ReplayPayload) :
    VerdictsAgree sha256 payload ↔ Agreeable sha256 payload := by
  cases h : numericFrameTimes payload.tape.val with
  | error e =>
    obtain ⟨e', he'⟩ : ∃ e', frameTimes workerErrors payload.tape.val = .error e' := by
      cases hw : frameTimes workerErrors payload.tape.val with
      | error e' => exact ⟨e', rfl⟩
      | ok times =>
        have hg : numericFrameTimes payload.tape.val = .ok times := (frameTimes_ok hw).1
        rw [hg] at h
        cases h
    have hworker : verifyReplay sha256 payload = .error e' := by simp only [verifyReplay, he']
    have hgateway : (verifyReplayTape sha256 payload.tape payload.toReplayOptions).rejectReason = some e := by
      simp only [verifyReplayTape, h]
    constructor
    · intro _ times ht
      rw [h] at ht
      cases ht
    · intro _
      refine ⟨⟨fun _ => ⟨e, frameTimes_error h, hgateway⟩, fun _ => ⟨e', hworker⟩⟩, fun r hr => ?_⟩
      rw [hworker] at hr
      cases hr
  | ok times =>
    obtain ⟨hverified, hhash, hcount, hduration, hreason⟩ := verifyReplayTape_ok sha256 payload h
    have hworker := verifyReplay_ok sha256 payload h
    have htexts := stableJson_eq_jsonDumps_iff payload.tape.property
    constructor
    · rintro ⟨hraises, hfinds⟩ times' ht
      obtain rfl : times = times' := by
        rw [h] at ht
        exact Except.ok.inj ht
      have hbounded : Bounded payload.tape.val := by
        by_contra hno
        rw [if_neg hno] at hworker
        obtain ⟨r, hr, hstructural⟩ := hraises.mp ⟨_, hworker⟩
        exact hreason r hr hstructural
      rw [if_pos hbounded] at hworker
      obtain ⟨hv, hd, -, -⟩ := hfinds _ hworker
      have hsame : sha256.digest (jsonDumps payload.tape.val) = sha256.digest (stableJson payload.tape.val) :=
        Option.some.inj (hd.trans hhash)
      refine ⟨hbounded, htexts.mp (sha256.injective hsame).symm, fun hc => ?_⟩
      have hpass := hverified ▸ hv
      rw [hc.2] at hpass
      exact ((replayResult_verified hsame).mp hpass).2 hc.1
    · intro hagree
      obtain ⟨hbounded, hplain, hnot⟩ := hagree times h
      rw [if_pos hbounded] at hworker
      have hsame : sha256.digest (jsonDumps payload.tape.val) = sha256.digest (stableJson payload.tape.val) := by
        rw [htexts.mpr hplain]
      refine ⟨⟨fun ⟨e, he⟩ => ?_, fun ⟨r, hr, hstructural⟩ => absurd hstructural (hreason r hr)⟩, fun r hr => ?_⟩
      · rw [hworker] at he
        cases he
      · obtain rfl : replayResult sha256 payload times = r := by
          rw [hworker] at hr
          exact Except.ok.inj hr
        refine ⟨?_, (congrArg some hsame).trans hhash.symm, hcount.symm, hduration.symm⟩
        rw [hverified, Bool.eq_iff_iff, replayResult_verified hsame]
        exact ⟨fun hv => hv.1, fun hp => ⟨hp, fun hw => hnot ⟨hw, hp⟩⟩⟩

/-! ### A name with an accent -/

/-- Two units for each character of a text, which no other text has. -/
def sampleSha256 : Sha256 where
  digest t := 0x78 :: t.flatMap fun c => [UInt16.ofNat (c.toNat / 0x10000), UInt16.ofNat (c.toNat % 0x10000)]
  nonempty _ := List.cons_ne_nil _ _
  injective := by
    intro t u h
    have h' := (List.cons.inj h).2
    clear h
    induction t generalizing u with
    | nil =>
      cases u with
      | nil => rfl
      | cons d u => cases h'
    | cons c t ih =>
      cases u with
      | nil => cases h'
      | cons d u =>
        obtain ⟨hhigh, htail⟩ := List.cons.inj h'
        obtain ⟨hlow, hrest⟩ := List.cons.inj htail
        have hc : c.toNat < 2 ^ 32 := c.val.toNat_lt
        have hd : d.toNat < 2 ^ 32 := d.val.toNat_lt
        have hhigh' := congrArg UInt16.toNat hhigh
        have hlow' := congrArg UInt16.toNat hlow
        rw [UInt16.toNat_ofNat', UInt16.toNat_ofNat'] at hhigh' hlow'
        have hcd : c.toNat = d.toNat := by omega
        rw [Char.toNat_inj.mp hcd, ih hrest]

/-- Two frames a second apart, flown by Zoë. -/
def accentedTape : Doc :=
  .object [(units "frames", .array [.object [(units "t", .leaf (.number (.int 0)))],
      .object [(units "t", .leaf (.number (.int 1)))]]),
    (units "header", .object [(units "pilot", .leaf (.string (units "Zoë")))])]

def accentedPayload : ReplayPayload where
  tape := ⟨accentedTape, by decide⟩
  expectedHash := none
  expectedContractHash := none
  courseId := none
  archetype := none
  className := none
  «class» := none
  modelId := none
  policyId := none

/-- The worker finds another hash of the tape than the gateway. -/
theorem verdicts_differ_on_accent : ¬ VerdictsAgree sampleSha256 accentedPayload := by
  intro h
  have hframes : numericFrameTimes accentedTape = .ok [intToFloat 0, intToFloat 1] := by decide +kernel
  have hbounded : Bounded accentedTape := by decide +kernel
  have hworker := verifyReplay_ok sampleSha256 accentedPayload hframes
  rw [if_pos (by exact hbounded)] at hworker
  obtain ⟨-, hdigest, -, -⟩ := h.finds _ hworker
  have hgateway := (verifyReplayTape_ok sampleSha256 accentedPayload hframes).2.1
  have htexts := sampleSha256.injective (Option.some.inj (hdigest.trans hgateway))
  -- so the name would be portable
  have hplain := (stableJson_eq_jsonDumps_iff accentedPayload.tape.property).mp htexts.symm
  have hheader := (Tree.everywhere_object.mp hplain).2 (units "header",
    .object [(units "pilot", .leaf (.string (units "Zoë")))]) (List.mem_cons_of_mem _ List.mem_cons_self)
  have hname := (Tree.everywhere_object.mp hheader).2 (units "pilot", .leaf (.string (units "Zoë"))) List.mem_cons_self
  exact absurd ((Tree.everywhere_leaf _).mp hname) (by decide +kernel)

end Forge.Replay
