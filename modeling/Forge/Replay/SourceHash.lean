import Forge.Data.Except
import Forge.Json.Access
import Forge.Json.Transport
import Forge.Replay.Verdict

/-!
# The source hash of an offline dataset

A job of kind `train.offline-bc` carries a telemetry tape. The gateway puts the tape into
the input of the job beside the hash of its canonical text (`createJobUnchecked`,
`platform.ts`), and the worker hashes the tape that it loaded with its own canonical text
and refuses the job if the hashes differ (`validate_offline_training_tape`,
`offline_dataset.py`).

`sourceHash_agrees_iff` says for which tapes the hashes agree.
-/

namespace Forge.Replay

/-! ### The gateway -/

/-- The members that a job reads of its telemetry log. -/
structure TelemetrySource where
  modelId : Option CodeUnits
  tape : JsonValue

structure HttpError where
  statusCode : ℕ
  message : String

def refuse {α : Type} (statusCode : ℕ) (message : String) : Except HttpError α := .error ⟨statusCode, message⟩

def modelIdFrom (payload : Doc) : Option CodeUnits := stringMember "modelId" payload

/-- The distinct non-empty ids, first occurrences first. -/
def telemetryLogIdsFromPayload (payload : Doc) : List CodeUnits :=
  let ids := match member "telemetryLogIds" payload with
    | some (.array ts) => ts.filterMap asString
    | _ => []
  ((ids ++ (stringMember "telemetryLogId" payload).toList).filter (· ≠ [])).eraseDups

/-- `{...payload, ...members}` -/
def spread (members : List (CodeUnits × Doc)) : Doc → Doc
  | .object ms => .object (members ++ ms.filter fun e => e.1 ∉ members.map Prod.fst)
  | _ => .object members

def offlineLimits : JsonLimits where
  maxBytes := 4 * 1024 * 1024
  maxDepth := 32
  maxNodes := 100000

/-- `createJobUnchecked` for a job of kind `train.offline-bc`: what becomes of its payload, where `source` finds
the telemetry log of the user with an id. -/
def offlineJobInput (sha256 : Sha256) (source : Option CodeUnits → Option TelemetrySource) (payload : Doc) :
    Except HttpError Doc :=
  let telemetryLogId := (telemetryLogIdsFromPayload payload).head?
  match telemetryLogId, source telemetryLogId with
  | some id, some telemetry =>
    if telemetry.modelId ≠ modelIdFrom payload then
      refuse 409 "train.offline-bc telemetry log belongs to a different model"
    else if isRecord telemetry.tape.val = false then
      refuse 409 "train.offline-bc telemetry tape is malformed"
    else if stringMember "schemaVersion" telemetry.tape.val = some (units "forge-recorder-telemetry-reference/1.0.0") ∨
        stringMember "storage" telemetry.tape.val = some (units "object-backed") then
      refuse 409 "object-backed recorder telemetry is not authorized for offline training"
    else
      let input := spread [(units "telemetryLogId", .leaf (.string id)),
        (units "telemetryLogIds", .array [.leaf (.string id)]),
        (units "telemetryLogSha256", .leaf (.string (sha256.digest (stableJson telemetry.tape.val)))),
        (units "tape", telemetry.tape.val)] payload
      match assertBoundedJson "authoritative job payload" offlineLimits input with
      | .ok () => .ok input
      | .error message => refuse 400 message
  | _, _ => refuse 404 "train.offline-bc telemetry log not found"

/-! ### The worker -/

/-- A value that `json.dumps` writes with `allow_nan=False` and that UTF-8 can encode. -/
def Encodable : Doc → Prop
  | .leaf (.number (.decimal x)) => x.isFinite = true
  | .leaf (.string s) => WellFormed s = true
  | .leaf _ | .array _ => True
  | .object ms => ∀ e ∈ ms, WellFormed e.1 = true

instance : DecidablePred Encodable
  | .leaf (.number (.decimal x)) => inferInstanceAs (Decidable (x.isFinite = true))
  | .leaf (.string s) => inferInstanceAs (Decidable (WellFormed s = true))
  | .leaf .null | .leaf (.bool _) | .leaf (.number (.int _)) | .array _ => isTrue trivial
  | .object ms => inferInstanceAs (Decidable (∀ e ∈ ms, WellFormed e.1 = true))

/-- `stable_sha256`; it raises a `ValueError` where the value has no canonical text. -/
def stableSha256 (sha256 : Sha256) (value : Doc) : Option CodeUnits :=
  if value.Everywhere Encodable then some (sha256.digest (unicodeDumps value)) else none

/-- `_bounded_string` -/
def boundedString (label : String) (maximum : ℕ) : Option Doc → Except String CodeUnits
  | some (.leaf (.string s)) =>
    if s = [] ∨ WellFormed s = false ∨ maximum < byteLength s ∨ (0 : UInt16) ∈ s then
      .error s!"{label} must be a non-empty bounded string"
    else .ok s
  | _ => .error s!"{label} must be a non-empty bounded string"

/-- `_lower_sha256` -/
def lowerSha256 (label : String) : Option Doc → Except String CodeUnits
  | some (.leaf (.string s)) =>
    if s.length ≠ 64 ∨ ∃ u ∈ s, u ∉ units "0123456789abcdef" then .error s!"{label} must be lowercase SHA-256"
    else .ok s
  | _ => .error s!"{label} must be lowercase SHA-256"

def hashMismatch : String := "offline training telemetry log hash does not match the exact tape"

/-- What `validate_offline_training_tape` checks first: the tape, the id of its log and the hash. -/
def sourceAuthority (sha256 : Sha256) (payload : Doc) : Except String (CodeUnits × CodeUnits) :=
  match member "tape" payload with
  | some (.object ms) => do
    let sourceLogId ← boundedString "telemetryLogId" 200 (member "telemetryLogId" payload)
    let declaredSourceHash ← lowerSha256 "telemetryLogSha256" (member "telemetryLogSha256" payload)
    match stableSha256 sha256 (.object ms) with
    | none => .error "offline training tape must contain finite JSON"
    | some actualSourceHash =>
      if declaredSourceHash ≠ actualSourceHash then .error hashMismatch else .ok (sourceLogId, actualSourceHash)
  | _ => .error "offline training requires one gateway-owned telemetry tape"

/-! ### When the hashes agree -/

/-- The worker finds the hash that the gateway declared, and does not refuse the job for it. -/
def SourceHashAgrees (sha256 : Sha256) (input : Doc) : Prop :=
  (∃ tape, member "tape" (carried input) = some tape ∧
    stableSha256 sha256 tape = stringMember "telemetryLogSha256" (carried input)) ∧
  sourceAuthority sha256 (carried input) ≠ .error hashMismatch

/-- Strings and names that UTF-8 can encode. -/
def Spellable : Doc → Prop
  | .leaf (.string s) => WellFormed s = true
  | .leaf _ | .array _ => True
  | .object ms => ∀ e ∈ ms, WellFormed e.1 = true

instance : DecidablePred Spellable
  | .leaf (.string s) => inferInstanceAs (Decidable (WellFormed s = true))
  | .leaf .null | .leaf (.bool _) | .leaf (.number _) | .array _ => isTrue trivial
  | .object ms => inferInstanceAs (Decidable (∀ e ∈ ms, WellFormed e.1 = true))

/-- A value that both sides write alike. -/
def Travels (d : Doc) : Prop := Settled d ∧ Spellable d

instance : DecidablePred Travels := fun d => inferInstanceAs (Decidable (Settled d ∧ Spellable d))

/-- Every number that arrives can be written. -/
theorem encodable_carriedNumber (x : Float) : Encodable (.leaf (carriedNumber x)) := by
  unfold carriedNumber
  dsimp only
  split_ifs <;> trivial

theorem encodable_carried (d : Doc) : Encodable (carried d) ↔ Spellable d := by
  unfold carried
  match d with
  | .leaf .null => exact Iff.rfl
  | .leaf (.bool _) => exact Iff.rfl
  | .leaf (.number n) => exact iff_of_true (encodable_carriedNumber n.toDouble) trivial
  | .leaf (.string _) => exact Iff.rfl
  | .array _ => exact Iff.rfl
  | .object ms =>
    rw [Tree.mapLeaf_object]
    exact List.forall_mem_map

/-- **Where the worker finds the hash of the gateway.** -/
theorem stableSha256_carried_iff (sha256 : Sha256) (tape : JsonValue) :
    stableSha256 sha256 (carried tape.val) = some (sha256.digest (stableJson tape.val)) ↔
      tape.val.Everywhere Travels := by
  have hencodable : (carried tape.val).Everywhere Encodable ↔ tape.val.Everywhere Spellable :=
    Tree.everywhere_mapLeaf encodable_carried tape.val
  have hsplit : tape.val.Everywhere Travels ↔ tape.val.Everywhere Settled ∧ tape.val.Everywhere Spellable :=
    Tree.everywhere_and tape.val
  rw [hsplit, ← stableJson_eq_unicodeDumps_iff tape.property, ← hencodable]
  unfold stableSha256
  constructor
  · intro h
    split_ifs at h with hall
    exact ⟨(sha256.injective (Option.some.inj h)).symm, hall⟩
  · rintro ⟨htext, hall⟩
    rw [if_pos hall, htext]

theorem member_carried (name : String) (d : Doc) : member name (carried d) = (member name d).map carried := by
  cases d with
  | leaf a => rfl
  | array ts => rfl
  | object ms =>
    rw [carried, Tree.mapLeaf_object, member, member, List.find?_map, Option.map_map, Option.map_map]
    rfl

/-- What the gateway puts into the input of a job. -/
theorem offlineJobInput_ok {sha256 : Sha256} {source : Option CodeUnits → Option TelemetrySource} {payload input : Doc}
    {telemetry : TelemetrySource} (hs : source (telemetryLogIdsFromPayload payload).head? = some telemetry)
    (h : offlineJobInput sha256 source payload = .ok input) :
    member "tape" input = some telemetry.tape.val ∧ stringMember "telemetryLogSha256" input =
      some (sha256.digest (stableJson telemetry.tape.val)) := by
  unfold offlineJobInput at h
  dsimp only at h
  rw [hs] at h
  cases hid : (telemetryLogIdsFromPayload payload).head? with
  | none =>
    rw [hid] at h
    cases h
  | some id =>
    rw [hid] at h
    simp only [refuse] at h
    split_ifs at h
    split at h
    · cases h
      cases payload <;> exact ⟨rfl, rfl⟩
    · cases h

theorem boundedString_error {label : String} {maximum : ℕ} {value : Option Doc} {e : String}
    (h : boundedString label maximum value = .error e) : e = s!"{label} must be a non-empty bounded string" := by
  unfold boundedString at h
  split at h
  · split_ifs at h
    exact (Except.error.inj h).symm
  · exact (Except.error.inj h).symm

theorem lowerSha256_ok {label : String} {value : Option Doc} {s : CodeUnits}
    (h : lowerSha256 label value = .ok s) : value = some (.leaf (.string s)) := by
  unfold lowerSha256 at h
  split at h
  · split_ifs at h
    rw [Except.ok.inj h]
  · cases h

theorem lowerSha256_error {label : String} {value : Option Doc} {e : String}
    (h : lowerSha256 label value = .error e) : e = s!"{label} must be lowercase SHA-256" := by
  unfold lowerSha256 at h
  split at h
  · split_ifs at h
    exact (Except.error.inj h).symm
  · exact (Except.error.inj h).symm

/-- A job is refused for its hash only where another hash was declared. -/
theorem sourceAuthority_mismatch {sha256 : Sha256} {payload : Doc}
    (h : sourceAuthority sha256 payload = .error hashMismatch) :
    ∃ tape declared, member "tape" payload = some tape ∧
      member "telemetryLogSha256" payload = some (.leaf (.string declared)) ∧
      stableSha256 sha256 tape ≠ some declared := by
  unfold sourceAuthority at h
  split at h
  · rename_i ms htape
    cases hid : boundedString "telemetryLogId" 200 (member "telemetryLogId" payload) with
    | error e =>
      rw [hid] at h
      exact absurd ((boundedString_error hid).symm.trans (Except.error.inj h)) (by decide)
    | ok id =>
      cases hdeclared : lowerSha256 "telemetryLogSha256" (member "telemetryLogSha256" payload) with
      | error e =>
        rw [hid, hdeclared] at h
        exact absurd ((lowerSha256_error hdeclared).symm.trans (Except.error.inj h)) (by decide)
      | ok declared =>
        refine ⟨_, declared, htape, lowerSha256_ok hdeclared, fun hsame => ?_⟩
        rw [hid, hdeclared] at h
        simp only [bind, Except.bind, hsame] at h
        rw [if_neg (not_not_intro rfl)] at h
        cases h
  · exact absurd (Except.error.inj h) (by decide)

/-- **The hashes agree exactly for the tapes that travel.** -/
theorem sourceHash_agrees_iff (sha256 : Sha256) {source : Option CodeUnits → Option TelemetrySource}
    {payload input : Doc} {telemetry : TelemetrySource}
    (hs : source (telemetryLogIdsFromPayload payload).head? = some telemetry)
    (h : offlineJobInput sha256 source payload = .ok input) :
    SourceHashAgrees sha256 input ↔ telemetry.tape.val.Everywhere Travels := by
  obtain ⟨htape, hhash⟩ := offlineJobInput_ok hs h
  have htape' : member "tape" (carried input) = some (carried telemetry.tape.val) := by
    rw [member_carried, htape, Option.map_some]
  have hhash' : stringMember "telemetryLogSha256" (carried input) =
      some (sha256.digest (stableJson telemetry.tape.val)) := by
    rw [stringMember_eq_some, member_carried, stringMember_eq_some.mp hhash]
    rfl
  rw [← stableSha256_carried_iff]
  unfold SourceHashAgrees
  rw [htape', hhash']
  constructor
  · rintro ⟨⟨tape, ht, hsame⟩, -⟩
    exact Option.some.inj ht ▸ hsame
  · intro hsame
    refine ⟨⟨_, rfl, hsame⟩, fun hrefused => ?_⟩
    -- the hash that was declared is the one that is found
    obtain ⟨tape, declared, ht, hdeclared, hne⟩ := sourceAuthority_mismatch hrefused
    rw [htape'] at ht
    rw [stringMember_eq_some.mp hhash'] at hdeclared
    cases hdeclared
    exact hne (Option.some.inj ht ▸ hsame)

/-! ### A small reading -/

/-- One frame of a sensor that reads a hundred-thousandth. -/
def smallTape : JsonValue where
  val := .object [(units "frames", .array [.object [(units "t", .leaf (.number (.int 0))),
    (units "yawRate", .leaf (.number (.decimal 0.00001)))]])]
  property := by decide

/-- The same with a thousandth. -/
def plainTape : JsonValue where
  val := .object [(units "frames", .array [.object [(units "t", .leaf (.number (.int 0))),
    (units "yawRate", .leaf (.number (.decimal 0.001)))]])]
  property := by decide

def samplePayload : Doc := .object [(units "modelId", .leaf (.string (units "m"))),
  (units "telemetryLogId", .leaf (.string (units "log")))]

def sampleSource (tape : JsonValue) (id : Option CodeUnits) : Option TelemetrySource :=
  if id = some (units "log") then some ⟨some (units "m"), tape⟩ else none

/-- A job is created on each of the tapes. -/
theorem exists_sampleInput (tape : JsonValue)
    (h : (offlineJobInput sampleSha256 (sampleSource tape) samplePayload).toOption.isSome = true) :
    ∃ input, offlineJobInput sampleSha256 (sampleSource tape) samplePayload = .ok input := by
  obtain ⟨input, hinput⟩ := Option.isSome_iff_exists.mp h
  exact ⟨input, toOption_eq_some_iff.mp hinput⟩

theorem sourceHash_agrees_plain : ∃ input,
    offlineJobInput sampleSha256 (sampleSource plainTape) samplePayload = .ok input ∧
      SourceHashAgrees sampleSha256 input := by
  obtain ⟨input, h⟩ := exists_sampleInput plainTape (by decide +kernel)
  have hs : sampleSource plainTape (telemetryLogIdsFromPayload samplePayload).head? =
      some ⟨some (units "m"), plainTape⟩ := rfl
  exact ⟨input, h, (sourceHash_agrees_iff sampleSha256 hs h).mpr (by decide +kernel)⟩

/-- The worker refuses a job on the other tape: JavaScript writes `0.00001`, Python `1e-05`. -/
theorem sourceHash_differs_on_small : ∃ input,
    offlineJobInput sampleSha256 (sampleSource smallTape) samplePayload = .ok input ∧
      ¬ SourceHashAgrees sampleSha256 input := by
  obtain ⟨input, h⟩ := exists_sampleInput smallTape (by decide +kernel)
  have hs : sampleSource smallTape (telemetryLogIdsFromPayload samplePayload).head? =
      some ⟨some (units "m"), smallTape⟩ := rfl
  refine ⟨input, h, fun hagrees => ?_⟩
  -- what is found is the hash of the text of another number
  obtain ⟨htape, hhash⟩ := offlineJobInput_ok hs h
  obtain ⟨⟨tape, ht, hsame⟩, -⟩ := hagrees
  rw [member_carried, htape] at ht
  rw [← Option.some.inj ht, stringMember_eq_some.mpr (by rw [member_carried, stringMember_eq_some.mp hhash]; rfl),
    stableSha256_carried_iff] at hsame
  exact absurd hsame (by decide +kernel)

end Forge.Replay
