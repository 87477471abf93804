import Forge.Ladder.Runtime
import Forge.Recorder.Model

/-!
# The deployment ladder of the studio

`deploymentLadder.ts` has its own stage table, confirmations and patterns. It checks a
start request before it is sent to the shell (`validateStartRequest`) and every status
that comes back (`parseDeploymentLadderStatus`). Both look into JSON values, so that
requests and statuses are modelled as they cross the bridge: `toJson` as serde writes
them, `readStartRequest` as serde reads a request. The derived reader denies unknown
fields. The studio looks at the fifteen members it knows and sends the value unchanged, so
that it lets a request pass that has one more (`operatorNote_refused`).

The **key result** `deploymentLadder_agrees` joins the two machines: the runs of the
shell, the statuses that the studio accepts, and the start requests that both accept.
-/

namespace Forge.Ladder

/-! ### Values on the bridge -/

/-- An object with these members. -/
def record (ms : List (String × Doc)) : Doc := .object (ms.map fun e => (units e.1, e.2))

def string (s : String) : Doc := .leaf (text s)

def boolean (b : Bool) : Doc := .leaf (.bool b)

def number (n : ℕ) : Doc := .leaf (.number (.int n))

def nullable (s : Option String) : Doc := s.elim (.leaf .null) string

def strings (ss : List String) : Doc := .array (ss.map string)

theorem member_record (name : String) (ms : List (String × Doc)) : member name (record ms) = ms.lookup name := by
  induction ms with
  | nil => rfl
  | cons e ms ih =>
    have hcons : member name (record (e :: ms)) = if e.1 = name then some e.2 else member name (record ms) := by
      simp only [member, record, List.map_cons, List.find?_cons, units_inj]
      by_cases he : e.1 = name <;> simp [he]
    rw [hcons, List.lookup_cons]
    by_cases he : e.1 = name
    · rw [if_pos he, beq_iff_eq.mpr he.symm]
    · rw [if_neg he, ih, beq_eq_false_iff_ne.mpr (Ne.symm he)]

/-- The members of a status, as serde writes them. -/
def DeploymentLadderStatus.fields (s : DeploymentLadderStatus) : List (String × Doc) :=
  [("schemaVersion", string s.schemaVersion), ("contractSchemaVersion", string s.contractSchemaVersion),
    ("state", string s.state), ("rehearsalMaturity", string s.rehearsalMaturity), ("sessionId", nullable s.sessionId),
    ("referenceRigId", nullable s.referenceRigId), ("modelId", nullable s.modelId),
    ("contractHash", nullable s.contractHash), ("lockfileHash", nullable s.lockfileHash),
    ("policyArtifactId", nullable s.policyArtifactId), ("supervisorJobId", nullable s.supervisorJobId),
    ("currentStage", nullable s.currentStage), ("nextStage", nullable s.nextStage),
    ("acknowledgedStages", strings s.acknowledgedStages), ("stageOrder", strings s.stageOrder),
    ("physicalConfirmationStages", strings s.physicalConfirmationStages),
    ("transitionCount", number s.transitionCount), ("policyRateHz", number s.policyRateHz.toNat),
    ("supervisorRateHz", number s.supervisorRateHz.toNat),
    ("firmwareRateLoopUntouched", boolean s.firmwareRateLoopUntouched),
    ("missedInferenceFallback", string s.missedInferenceFallback), ("policyAdvisory", boolean s.policyAdvisory),
    ("supervisorAuthority", boolean s.supervisorAuthority), ("noAutoArm", boolean s.noAutoArm),
    ("clientEvidenceBound", boolean s.clientEvidenceBound),
    ("deploymentEvidenceVerified", boolean s.deploymentEvidenceVerified),
    ("physicalConfirmationEvidenceVerified", boolean s.physicalConfirmationEvidenceVerified),
    ("hardwareExecutionAuthorized", boolean s.hardwareExecutionAuthorized),
    ("deviceIdentityVerified", boolean s.deviceIdentityVerified),
    ("fieldSessionVerified", boolean s.fieldSessionVerified), ("externalBetaEnabled", boolean s.externalBetaEnabled)]

def DeploymentLadderStatus.toJson (s : DeploymentLadderStatus) : Doc := record s.fields

/-- The members of a start request. -/
def DeploymentLadderStartRequest.fields (r : DeploymentLadderStartRequest) : List (String × Doc) :=
  [("sessionId", string r.sessionId), ("referenceRigId", string r.referenceRigId), ("modelId", string r.modelId),
    ("contractHash", string r.contractHash), ("lockfileHash", string r.lockfileHash),
    ("policyArtifactId", string r.policyArtifactId), ("policyExportGate", string r.policyExportGate),
    ("supervisorJobId", string r.supervisorJobId), ("supervisorDecision", string r.supervisorDecision),
    ("supervisorAllowPolicy", boolean r.supervisorAllowPolicy), ("policyRateHz", number r.policyRateHz.toNat),
    ("supervisorRateHz", number r.supervisorRateHz.toNat),
    ("firmwareRateLoopUntouched", boolean r.firmwareRateLoopUntouched),
    ("missedInferenceFallback", string r.missedInferenceFallback),
    ("physicalConfirmation", string r.physicalConfirmation)]

def DeploymentLadderStartRequest.toJson (r : DeploymentLadderStartRequest) : Doc := record r.fields

/-- A `String` field, as serde reads it. -/
def readString (name : String) (d : Doc) : Option String := (stringMember name d).bind decodeUnits

/-- A `bool` field. -/
def readBool (name : String) (d : Doc) : Option Bool :=
  match member name d with
  | some (.leaf (.bool b)) => some b
  | _ => none

/-- A `u32` field: JavaScript writes the integral numbers of this range without fraction and exponent. -/
def readUInt32 (name : String) (d : Doc) : Option UInt32 :=
  (safeValue (member name d)).bind fun n => if 0 ≤ n ∧ n < 2 ^ 32 then some (UInt32.ofNat n.toNat) else none

/-- The fields of `DeploymentLadderStartRequest`. -/
def startRequestFields : List String :=
  ["sessionId", "referenceRigId", "modelId", "contractHash", "lockfileHash", "policyArtifactId", "policyExportGate",
    "supervisorJobId", "supervisorDecision", "supervisorAllowPolicy", "policyRateHz", "supervisorRateHz",
    "firmwareRateLoopUntouched", "missedInferenceFallback", "physicalConfirmation"]

/-- An object in which every name is that of a field and none is there twice: what the derived reader of a type with
`deny_unknown_fields` goes on with. -/
def knownFields (fields : List String) : Doc → Bool
  | .object ms => (ms.map Prod.fst).all (· ∈ fields.map units) && decide (ms.map Prod.fst).Nodup
  | _ => false

/-- The fields of a start request. -/
def readFields (d : Doc) : Option DeploymentLadderStartRequest := do
  let sessionId ← readString "sessionId" d
  let referenceRigId ← readString "referenceRigId" d
  let modelId ← readString "modelId" d
  let contractHash ← readString "contractHash" d
  let lockfileHash ← readString "lockfileHash" d
  let policyArtifactId ← readString "policyArtifactId" d
  let policyExportGate ← readString "policyExportGate" d
  let supervisorJobId ← readString "supervisorJobId" d
  let supervisorDecision ← readString "supervisorDecision" d
  let supervisorAllowPolicy ← readBool "supervisorAllowPolicy" d
  let policyRateHz ← readUInt32 "policyRateHz" d
  let supervisorRateHz ← readUInt32 "supervisorRateHz" d
  let firmwareRateLoopUntouched ← readBool "firmwareRateLoopUntouched" d
  let missedInferenceFallback ← readString "missedInferenceFallback" d
  let physicalConfirmation ← readString "physicalConfirmation" d
  pure { sessionId, referenceRigId, modelId, contractHash, lockfileHash, policyArtifactId, policyExportGate,
         supervisorJobId, supervisorDecision, supervisorAllowPolicy, policyRateHz, supervisorRateHz,
         firmwareRateLoopUntouched, missedInferenceFallback, physicalConfirmation }

/-- The derived reader of a start request. -/
def readStartRequest (d : Doc) : Option DeploymentLadderStartRequest :=
  if knownFields startRequestFields d then readFields d else none

namespace Studio

/-! ### Constants -/

/-- `STAGE_ORDER`: the ids of `DEPLOYMENT_LADDER_STAGES`. -/
def stageOrder : List String := ["sitl", "hitl", "constrained", "free"]

/-- `PHYSICAL_STAGES` -/
def physicalStages : List String := stageOrder.drop 1

def statusFields : List String :=
  ["schemaVersion", "contractSchemaVersion", "state", "rehearsalMaturity", "sessionId", "referenceRigId", "modelId",
    "contractHash", "lockfileHash", "policyArtifactId", "supervisorJobId", "currentStage", "nextStage",
    "acknowledgedStages", "stageOrder", "physicalConfirmationStages", "transitionCount", "policyRateHz",
    "supervisorRateHz", "firmwareRateLoopUntouched", "missedInferenceFallback", "policyAdvisory",
    "supervisorAuthority", "noAutoArm", "clientEvidenceBound", "deploymentEvidenceVerified",
    "physicalConfirmationEvidenceVerified", "hardwareExecutionAuthorized", "deviceIdentityVerified",
    "fieldSessionVerified", "externalBetaEnabled"]

/-- The versions that a status declares. -/
def statusVersions : List (String × Scalar) :=
  [("schemaVersion", text "forge-deployment-ladder-control/1.0.0"),
    ("contractSchemaVersion", text "forge-deployment-ladder/1.0.0"), ("rehearsalMaturity", text "local-ux-rehearsal")]

/-- The control rates of D9. -/
def controlRates : List (String × Scalar) :=
  [("policyRateHz", .number (.int 50)), ("supervisorRateHz", .number (.int 200)),
    ("firmwareRateLoopUntouched", .bool true), ("missedInferenceFallback", text "position-hold-or-manual")]

/-- The authority that a status may declare. -/
def statusAuthority : List (String × Scalar) :=
  [("policyAdvisory", .bool true), ("supervisorAuthority", .bool true), ("noAutoArm", .bool true),
    ("deploymentEvidenceVerified", .bool false), ("physicalConfirmationEvidenceVerified", .bool false),
    ("hardwareExecutionAuthorized", .bool false), ("deviceIdentityVerified", .bool false),
    ("fieldSessionVerified", .bool false), ("externalBetaEnabled", .bool false)]

/-- What a start request states about its policy, its supervisor and its confirmation. -/
def startStatements : List (String × Scalar) :=
  [("policyExportGate", text "exportable"), ("supervisorDecision", text "policy-advisory"),
    ("supervisorAllowPolicy", .bool true),
    ("physicalConfirmation", text "I confirm this is a rehearsal-only ladder session and grants no hardware authority")]

/-! ### Patterns -/

/-- `isSafeId`: `/^[A-Za-z0-9._-]{1,128}$/` -/
def isSafeId (value : CodeUnits) : Bool :=
  decide (1 ≤ value.length) && decide (value.length ≤ 128) && value.all (Recorder.inClass true "._-")

/-- `isSha256`: `/^[0-9a-f]{64}$/` -/
def isSha256 (value : CodeUnits) : Bool := Recorder.isSha256 value

def isD12Rig (value : CodeUnits) : Bool :=
  value = units "ref_quad_kakute-h7-source-one-5in" || value = units "ref_rover_waveshare-ugv-rover-pt-pi5-ros2"

def isStage (value : CodeUnits) : Bool := value ∈ stageOrder.map units

def sameStringArray (value : Option Doc) (expected : List String) : Bool :=
  match value with
  | some (.array ts) =>
    decide (ts.length = expected.length) && (ts.zip expected).all fun e => strictEquals (some e.1) (some (string e.2))
  | _ => false

/-- A member is this text. -/
def isText (name s : String) (value : Doc) : Bool := strictEquals (member name value) (some (string s))

def isBoolean : Option Doc → Bool
  | some (.leaf (.bool _)) => true
  | _ => false

/-! ### Statuses -/

def requireExactFields (value : Doc) (expected : List String) (label : String) : Except String Unit := do
  throwIf (isRecord value = false) (label ++ " must be an object")
  throwIf (exactFields expected value = false) (label ++ " fields have drifted")

/-- The checks of a status whose state is `inactive`. -/
def checkInactive (value : Doc) : Except String Unit := do
  ["sessionId", "referenceRigId", "modelId", "contractHash", "lockfileHash", "policyArtifactId", "supervisorJobId",
      "currentStage"].forM fun field =>
    throwIf (strictEquals (member field value) (some (.leaf .null)) = false)
      "inactive Desktop deployment-ladder status contains rehearsal identity"
  throwIf (isText "nextStage" "sitl" value = false ∨ sameStringArray (member "acknowledgedStages" value) [] = false ∨
      hasMembers [("transitionCount", .number (.int 0)), ("clientEvidenceBound", .bool false)] value = false)
    "inactive Desktop deployment-ladder status contains rehearsal progress"

/-- The checks of a status in any other state. -/
def checkActive (value : Doc) : Except String Unit := do
  ["sessionId", "modelId", "policyArtifactId", "supervisorJobId"].forM fun field =>
    throwIf ((stringMember field value).any isSafeId = false) ("Desktop deployment-ladder " ++ field ++ " is invalid")
  throwIf ((stringMember "referenceRigId" value).any isD12Rig = false ∨
      (stringMember "contractHash" value).any isSha256 = false ∨
      (stringMember "lockfileHash" value).any isSha256 = false ∨
      (stringMember "currentStage" value).any isStage = false)
    "active Desktop deployment-ladder identity is invalid"
  let currentStage := (stringMember "currentStage" value).getD []
  let index := (stageOrder.map units).idxOf currentStage
  throwIf (strictEquals (member "nextStage" value) (some (nullable stageOrder[index + 1]?)) = false ∨
      sameStringArray (member "acknowledgedStages" value) (stageOrder.take (index + 1)) = false ∨
      hasMembers [("transitionCount", .number (.int index)), ("clientEvidenceBound", .bool true)] value = false ∨
      isText "state" "rehearsal-complete" value ≠ isText "currentStage" "free" value)
    "active Desktop deployment-ladder progress is not a contiguous prefix"

/-- What `parseDeploymentLadderStatus` checks. -/
def checkStatus (value : Doc) : Except String Unit := do
  requireExactFields value statusFields "Desktop deployment-ladder status"
  throwIf (hasMembers statusVersions value = false ∨ (isText "state" "inactive" value = false ∧
      isText "state" "rehearsing" value = false ∧ isText "state" "rehearsal-complete" value = false))
    "Desktop deployment-ladder status declares an unsupported contract or state"
  throwIf (sameStringArray (member "stageOrder" value) stageOrder = false ∨
      sameStringArray (member "physicalConfirmationStages" value) physicalStages = false)
    "Desktop deployment-ladder stage order or confirmation scope has drifted"
  throwIf (hasMembers controlRates value = false) "Desktop deployment-ladder D9 control-rate authority has drifted"
  throwIf (hasMembers statusAuthority value = false ∨ isBoolean (member "clientEvidenceBound" value) = false)
    "Desktop deployment-ladder status promotes unsupported authority"
  if isText "state" "inactive" value then checkInactive value else checkActive value

/-- `parseDeploymentLadderStatus` -/
def parseDeploymentLadderStatus (value : Doc) : Except String Doc := do
  checkStatus value
  pure value

/-! ### Start requests -/

/-- What `validateStartRequest` checks. -/
def checkStartRequest (request : Doc) : Except String Unit := do
  throwIf (isRecord request = false) "Desktop deployment-ladder start request must be an object"
  ["sessionId", "modelId", "policyArtifactId", "supervisorJobId"].forM fun field =>
    throwIf ((stringMember field request).any isSafeId = false)
      ("Desktop deployment-ladder " ++ field ++ " must use 1 through 128 safe ASCII characters")
  throwIf ((stringMember "referenceRigId" request).any isD12Rig = false ∨
      (stringMember "contractHash" request).any isSha256 = false ∨
      (stringMember "lockfileHash" request).any isSha256 = false ∨ hasMembers startStatements request = false ∨
      hasMembers controlRates request = false)
    "Desktop deployment-ladder start request is outside the D9/D12 rehearsal contract"

/-- `validateStartRequest` -/
def validateStartRequest (request : Doc) : Except String Doc := do
  checkStartRequest request
  pure request

/-! ### Every status of the shell is accepted -/

@[simp] theorem strictEquals_text (s t : String) :
    strictEquals (some (.leaf (text s))) (some (.leaf (text t))) = decide (s = t) := by
  simp [strictEquals, text, Bool.beq_eq_decide_eq]

@[simp] theorem strictEquals_bool (a b : Bool) :
    strictEquals (some (.leaf (.bool a))) (some (.leaf (.bool b))) = (a == b) := rfl

@[simp] theorem strictEquals_null_text (t : String) : strictEquals (some (.leaf .null)) (some (.leaf (text t))) = false := rfl

/-- A number is equal to itself. -/
theorem strictEquals_number {n : ℕ} (h : n < 2 ^ 64) :
    strictEquals (some (number n)) (some (.leaf (.number (.int n)))) = true :=
  beq_self_of_isFinite (isFinite_intToFloat (by omega))

theorem strictEquals_nullable (s : Option String) : strictEquals (some (nullable s)) (some (nullable s)) = true := by
  cases s with
  | none => rfl
  | some s => simp [nullable, string]

theorem sameStringArray_strings (ss : List String) : sameStringArray (some (strings ss)) ss = true := by
  have hall : ((ss.map string).zip ss).all (fun e => strictEquals (some e.1) (some (string e.2))) = true := by
    induction ss with
    | nil => rfl
    | cons s ss ih =>
      rw [List.map_cons, List.zip_cons_cons, List.all_cons, ih, string, strictEquals_text, decide_eq_true rfl]
      rfl
  rw [strings, sameStringArray, List.length_map, decide_eq_true rfl, Bool.true_and, hall]

theorem exactFields_record (ms : List (String × Doc)) : exactFields (ms.map Prod.fst) (record ms) = true := by
  simp only [exactFields, record, List.isPerm_iff, List.map_map]
  exact List.Perm.refl _

theorem member_toJson (name : String) (s : DeploymentLadderStatus) : member name s.toJson = s.fields.lookup name :=
  member_record name s.fields

/-- A status with everything that does not depend on a session. -/
def Standing (s : DeploymentLadderStatus) : Prop :=
  s = { inactiveStatus with
        state := s.state, sessionId := s.sessionId, referenceRigId := s.referenceRigId, modelId := s.modelId,
        contractHash := s.contractHash, lockfileHash := s.lockfileHash, policyArtifactId := s.policyArtifactId,
        supervisorJobId := s.supervisorJobId, currentStage := s.currentStage, nextStage := s.nextStage,
        acknowledgedStages := s.acknowledgedStages, transitionCount := s.transitionCount,
        clientEvidenceBound := s.clientEvidenceBound }

theorem requireExactFields_toJson (s : DeploymentLadderStatus) (label : String) :
    requireExactFields s.toJson statusFields label = .ok () := by
  have hnames : statusFields = s.fields.map Prod.fst := rfl
  have hfields : exactFields statusFields s.toJson = true := by
    rw [hnames]
    exact exactFields_record s.fields
  have hrecord : isRecord s.toJson = true := rfl
  rw [requireExactFields, hfields, hrecord]
  rfl

theorem isText_state (s : DeploymentLadderStatus) (t : String) : isText "state" t s.toJson = decide (s.state = t) := by
  simp [isText, member_toJson, DeploymentLadderStatus.fields, List.lookup_cons, string]

/-- What does not depend on the session passes its checks. -/
theorem checkStatus_toJson {s : DeploymentLadderStatus} (hs : Standing s)
    (hstate : s.state = "inactive" ∨ s.state = "rehearsing" ∨ s.state = "rehearsal-complete") :
    checkStatus s.toJson = if s.state = "inactive" then checkInactive s.toJson else checkActive s.toJson := by
  have hversions : hasMembers statusVersions s.toJson = true := by
    rw [hs]
    simp [hasMembers, statusVersions, member_toJson, DeploymentLadderStatus.fields, List.lookup_cons, inactiveStatus,
      string, deploymentLadderControlSchemaVersion, deploymentLadderSchemaVersion,
      deploymentLadderMaturity]
  have horder : sameStringArray (member "stageOrder" s.toJson) stageOrder = true := by
    have hstages : member "stageOrder" s.toJson = some (strings stages) := by
      rw [hs]
      simp [member_toJson, DeploymentLadderStatus.fields, List.lookup_cons, inactiveStatus]
    rw [hstages, show stages = stageOrder from rfl, sameStringArray_strings]
  have hphysical : sameStringArray (member "physicalConfirmationStages" s.toJson) physicalStages = true := by
    have hstages : member "physicalConfirmationStages" s.toJson = some (strings physicalConfirmationStages) := by
      rw [hs]
      simp [member_toJson, DeploymentLadderStatus.fields, List.lookup_cons, inactiveStatus]
    rw [hstages, show physicalConfirmationStages = physicalStages from rfl, sameStringArray_strings]
  have hrates : hasMembers controlRates s.toJson = true := by
    rw [hs]
    simp [hasMembers, controlRates, member_toJson, DeploymentLadderStatus.fields, List.lookup_cons, inactiveStatus,
      string, boolean, policyRateHz, supervisorRateHz, missedInferenceFallback]
    exact ⟨strictEquals_number (by decide), strictEquals_number (by decide)⟩
  have hauthority : hasMembers statusAuthority s.toJson = true := by
    rw [hs]
    simp [hasMembers, statusAuthority, member_toJson, DeploymentLadderStatus.fields, List.lookup_cons, inactiveStatus,
      boolean]
  have hbound : isBoolean (member "clientEvidenceBound" s.toJson) = true := by
    simp [isBoolean, member_toJson, DeploymentLadderStatus.fields, List.lookup_cons, boolean]
  unfold checkStatus
  rw [requireExactFields_toJson, hversions, horder, hphysical, hrates, hauthority, hbound, isText_state, isText_state,
    isText_state]
  rcases hstate with hstate | hstate | hstate <;> rw [hstate] <;> simp [throwIf, bind, Except.bind]

/-- Nothing is wrong with the status of no session. -/
theorem inactive_accepted : checkStatus inactiveStatus.toJson = .ok () := by
  have hstanding : Standing inactiveStatus := rfl
  have hcount : strictEquals (some (number 0)) (some (.leaf (.number (.int 0)))) = true :=
    strictEquals_number (Nat.two_pow_pos 64)
  have hstages : sameStringArray (some (strings [])) [] = true := sameStringArray_strings []
  rw [checkStatus_toJson hstanding (.inl rfl), if_pos (show inactiveStatus.state = "inactive" from rfl), checkInactive,
    bind_eq_ok]
  refine ⟨(), forM_eq_ok.mpr ?_, throwIf_eq_ok.mpr ?_⟩
  · simp [throwIf_eq_ok, member_toJson, DeploymentLadderStatus.fields, List.lookup_cons, inactiveStatus, nullable,
      strictEquals]
  · simp [isText, hasMembers, member_toJson, DeploymentLadderStatus.fields, List.lookup_cons, inactiveStatus, nullable,
      string, boolean, stages, hcount, hstages]

/-! ### Patterns of bytes and of code units -/

theorem isSafeByte_eq (b : UInt8) : isSafeByte b = Recorder.inClass true "._-" (widen b) := by
  have hothers : units "._-" = [0x2E, 0x5F, 0x2D] := rfl
  rw [Bool.eq_iff_iff, Recorder.inClass, hothers]
  simp [isSafeByte, Recorder.isDigit, Recorder.isLower, Recorder.isUpper, UInt8.le_iff_toNat_le,
    UInt16.le_iff_toNat_le, ← UInt8.toNat_inj, ← UInt16.toNat_inj, or_assoc]

theorem isHexByte_eq (b : UInt8) : isHexByte b = Recorder.isLowerHex (widen b) := by
  simp [isHexByte, Recorder.isLowerHex, UInt8.le_iff_toNat_le, UInt16.le_iff_toNat_le]

theorem toNat_lt_of_inClass {u : UInt16} (h : Recorder.inClass true "._-" u = true) : u.toNat < 0x80 := by
  have hothers : units "._-" = [0x2E, 0x5F, 0x2D] := rfl
  rw [Recorder.inClass, hothers] at h
  simp [Recorder.isDigit, Recorder.isLower, Recorder.isUpper, UInt16.le_iff_toNat_le, ← UInt16.toNat_inj] at h
  omega

theorem toNat_lt_of_isLowerHex {u : UInt16} (h : Recorder.isLowerHex u = true) : u.toNat < 0x80 := by
  simp [Recorder.isLowerHex, UInt16.le_iff_toNat_le] at h
  omega

/-- **Both sides accept the same identifiers.** -/
theorem isSafeId_iff {us : CodeUnits} : isSafeId us = true ↔ ∃ s, us = units s ∧ Ladder.isSafeId s = true := by
  simp only [isSafeId, Ladder.isSafeId, Bool.and_eq_true, decide_eq_true_eq, Bool.not_eq_true', List.isEmpty_eq_false_iff,
    ← List.length_pos_iff]
  constructor
  · rintro ⟨⟨hpos, hle⟩, hall⟩
    obtain ⟨s, hs, hlength, hbytes⟩ := exists_of_all (fun _ => toNat_lt_of_inClass) isSafeByte_eq hall
    exact ⟨s, hs, ⟨by omega, by omega⟩, hbytes⟩
  · rintro ⟨s, rfl, ⟨hpos, hle⟩, hbytes⟩
    obtain ⟨hall, hlength⟩ := all_units (fun _ => toNat_lt_of_inClass) isSafeByte_eq hbytes
    exact ⟨⟨by omega, by omega⟩, hall⟩

/-- **Both sides accept the same digests.** -/
theorem isSha256_iff {us : CodeUnits} : isSha256 us = true ↔ ∃ s, us = units s ∧ Ladder.isSha256 s = true := by
  simp only [isSha256, Recorder.isSha256, Ladder.isSha256, Bool.and_eq_true, decide_eq_true_eq]
  constructor
  · rintro ⟨hlen, hall⟩
    obtain ⟨s, hs, hlength, hbytes⟩ := exists_of_all (fun _ => toNat_lt_of_isLowerHex) isHexByte_eq hall
    exact ⟨s, hs, by omega, hbytes⟩
  · rintro ⟨s, rfl, hlen, hbytes⟩
    obtain ⟨hall, hlength⟩ := all_units (fun _ => toNat_lt_of_isLowerHex) isHexByte_eq hbytes
    exact ⟨by omega, hall⟩

/-- **Both sides know the same rigs.** -/
theorem isD12Rig_iff {us : CodeUnits} : isD12Rig us = true ↔ ∃ s, us = units s ∧ s ∈ d12Rigs := by
  simp only [isD12Rig, d12Rigs, Bool.or_eq_true, decide_eq_true_eq, List.mem_cons, List.not_mem_nil, or_false]
  constructor
  · rintro (rfl | rfl)
    · exact ⟨_, rfl, .inl rfl⟩
    · exact ⟨_, rfl, .inr rfl⟩
  · rintro ⟨s, rfl, rfl | rfl⟩
    · exact .inl rfl
    · exact .inr rfl

/-! ### Start requests -/

section

variable {d : Doc} {name : String}

theorem strictEquals_text_iff {s : String} :
    strictEquals (member name d) (some (.leaf (text s))) = true ↔ readString name d = some s := by
  rw [text, strictEquals_string, ← stringMember_eq_some, readString]
  constructor
  · intro h
    rw [h, Option.bind_some, decodeUnits_units]
  · intro h
    obtain ⟨us, hus, hs⟩ := Option.bind_eq_some_iff.mp h
    rw [hus, decodeUnits_eq_some_iff.mp hs]

theorem strictEquals_bool_iff {b : Bool} :
    strictEquals (member name d) (some (.leaf (.bool b))) = true ↔ readBool name d = some b := by
  unfold readBool strictEquals
  split <;> simp_all

theorem isSome_of_readString {s : String} (h : readString name d = some s) : (member name d).isSome = true := by
  cases hm : member name d <;> simp_all [readString, stringMember]

theorem isSome_of_readBool {b : Bool} (h : readBool name d = some b) : (member name d).isSome = true := by
  cases hm : member name d <;> simp_all [readBool]

theorem isSome_of_readUInt32 {n : UInt32} (h : readUInt32 name d = some n) : (member name d).isSome = true := by
  cases hm : member name d <;> simp_all [readUInt32, safeValue]

/-- A pattern that matches texts only matches what serde reads. -/
theorem any_stringMember_iff {p : CodeUnits → Bool} {q : String → Prop}
    (h : ∀ {us}, p us = true ↔ ∃ s, us = units s ∧ q s) :
    (stringMember name d).any p = true ↔ ∃ s, readString name d = some s ∧ q s := by
  rw [readString]
  cases stringMember name d with
  | none => simp
  | some us =>
    rw [Option.any_some, Option.bind_some, h]
    simp only [decodeUnits_eq_some_iff]

theorem strictEquals_number_iff {n : ℕ} : strictEquals (member name d) (some (.leaf (.number (.int n)))) = true ↔
    ∃ m, member name d = some (.leaf (.number m)) ∧ (m.toDouble == intToFloat n) = true := by
  cases member name d with
  | none => simp [strictEquals]
  | some t =>
    cases t with
    | array ts => simp [strictEquals]
    | object ms => simp [strictEquals]
    | leaf a => cases a <;> simp [strictEquals, Numeral.toDouble]

/-- A rate that is `===` to an integer is read as this integer. -/
theorem readUInt32_of_strictEquals {n : ℕ} (hn : n < 2 ^ 32) (hvalue : floatValue (intToFloat n) = n)
    (h : strictEquals (member name d) (some (.leaf (.number (.int n)))) = true) :
    readUInt32 name d = some (UInt32.ofNat n) := by
  obtain ⟨m, hm, hbeq⟩ := strictEquals_number_iff.mp h
  have hfinite : m.toDouble.isFinite = true := isFinite_of_beq hbeq (isFinite_intToFloat (by omega))
  have hq : floatValue m.toDouble = n := (floatValue_eq_of_beq hbeq).trans hvalue
  have hsafe : safeValue (member name d) = some (n : ℤ) := by
    rw [hm, safeValue, hq, Rat.num_natCast, Rat.den_natCast, Nat.abs_cast]
    exact if_pos ⟨hfinite, rfl, by unfold maxSafeInteger; omega⟩
  rw [readUInt32, hsafe, Option.bind_some, if_pos (by omega), Int.toNat_natCast]

end

/-- What the shell asks of a start request. -/
theorem validateStartRequest_eq_ok {r : DeploymentLadderStartRequest} :
    Ladder.validateStartRequest r = .ok () ↔
      (Ladder.isSafeId r.sessionId = true ∧ Ladder.isSafeId r.modelId = true ∧
        Ladder.isSafeId r.policyArtifactId = true ∧ Ladder.isSafeId r.supervisorJobId = true) ∧
      r.referenceRigId ∈ d12Rigs ∧ (Ladder.isSha256 r.contractHash = true ∧ Ladder.isSha256 r.lockfileHash = true) ∧
      (r.policyExportGate = "exportable" ∧ r.supervisorDecision = "policy-advisory" ∧ r.supervisorAllowPolicy = true) ∧
      (r.policyRateHz = policyRateHz ∧ r.supervisorRateHz = supervisorRateHz ∧ r.firmwareRateLoopUntouched = true ∧
        r.missedInferenceFallback = missedInferenceFallback) ∧
      r.physicalConfirmation = deploymentLadderStartConfirmation := by
  unfold Ladder.validateStartRequest
  simp only [check_eq_ok, forM_eq_ok, throwIf_eq_ok, List.forall_mem_cons, not_or, Bool.not_eq_false,
    Decidable.not_not, List.not_mem_nil, false_imp_iff, implies_true, and_true]

/-- What the studio asks of a start request. -/
theorem checkStartRequest_eq_ok {d : Doc} : checkStartRequest d = .ok () ↔
    isRecord d = true ∧
      ((stringMember "sessionId" d).any isSafeId = true ∧ (stringMember "modelId" d).any isSafeId = true ∧
        (stringMember "policyArtifactId" d).any isSafeId = true ∧ (stringMember "supervisorJobId" d).any isSafeId = true) ∧
      (stringMember "referenceRigId" d).any isD12Rig = true ∧ (stringMember "contractHash" d).any isSha256 = true ∧
      (stringMember "lockfileHash" d).any isSha256 = true ∧ hasMembers startStatements d = true ∧
      hasMembers controlRates d = true := by
  unfold checkStartRequest
  simp only [check_eq_ok, forM_eq_ok, throwIf_eq_ok, List.forall_mem_cons, not_or, Bool.not_eq_false,
    List.not_mem_nil, false_imp_iff, implies_true, and_true]

theorem floatValue_rates : floatValue (intToFloat (50 : ℕ)) = (50 : ℕ) ∧ floatValue (intToFloat (200 : ℕ)) = (200 : ℕ) := by
  decide +kernel

/-- What the statements of a start request are read as. -/
theorem read_startStatements {d : Doc} (h : hasMembers startStatements d = true) :
    readString "policyExportGate" d = some "exportable" ∧ readString "supervisorDecision" d = some "policy-advisory" ∧
      readBool "supervisorAllowPolicy" d = some true ∧
      readString "physicalConfirmation" d = some deploymentLadderStartConfirmation := by
  simp only [hasMembers, startStatements, List.all_cons, List.all_nil, Bool.and_true, Bool.and_eq_true] at h
  exact ⟨strictEquals_text_iff.mp h.1, strictEquals_text_iff.mp h.2.1, strictEquals_bool_iff.mp h.2.2.1,
    strictEquals_text_iff.mp h.2.2.2⟩

/-- What the control rates of a start request are read as. -/
theorem read_controlRates {d : Doc} (h : hasMembers controlRates d = true) :
    readUInt32 "policyRateHz" d = some policyRateHz ∧ readUInt32 "supervisorRateHz" d = some supervisorRateHz ∧
      readBool "firmwareRateLoopUntouched" d = some true ∧
      readString "missedInferenceFallback" d = some missedInferenceFallback := by
  simp only [hasMembers, controlRates, List.all_cons, List.all_nil, Bool.and_true, Bool.and_eq_true] at h
  exact ⟨readUInt32_of_strictEquals (by decide) floatValue_rates.1 h.1,
    readUInt32_of_strictEquals (by decide) floatValue_rates.2 h.2.1, strictEquals_bool_iff.mp h.2.2.1,
    strictEquals_text_iff.mp h.2.2.2⟩

theorem nodup_startRequestFields : startRequestFields.Nodup := by decide

/-- Where no field is missing, the known fields are the exact ones. -/
theorem knownFields_iff {fields : List String} {d : Doc} (hn : fields.Nodup)
    (hd : ∀ name ∈ fields, (member name d).isSome = true) :
    knownFields fields d = true ↔ exactFields fields d = true := by
  cases d with
  | leaf a => simp [knownFields, exactFields]
  | array ts => simp [knownFields, exactFields]
  | object ms =>
    have hnodup : (fields.map units).Nodup := hn.map fun _ _ h => units_inj.mp h
    simp only [knownFields, exactFields, Bool.and_eq_true, decide_eq_true_eq, List.isPerm_iff, List.all_eq_true]
    constructor
    · rintro ⟨hknown, hms⟩
      refine (List.perm_ext_iff_of_nodup hms hnodup).mpr fun us => ⟨hknown us, fun hus => ?_⟩
      obtain ⟨name, hname, rfl⟩ := List.mem_map.mp hus
      obtain ⟨t, ht⟩ := Option.isSome_iff_exists.mp (hd name hname)
      obtain ⟨e, he, -⟩ := Option.map_eq_some_iff.mp ht
      have hkey : e.1 = units name := by simpa using List.find?_some he
      exact hkey ▸ List.mem_map_of_mem (List.mem_of_find?_eq_some he)
    · intro hperm
      exact ⟨fun us hus => hperm.mem_iff.mp hus, hperm.nodup_iff.mpr hnodup⟩

/-- What the studio accepts as a start request, serde reads field by field as one that the shell accepts. -/
theorem fields_of_checkStartRequest {d : Doc} (h : checkStartRequest d = .ok ()) :
    (∀ name ∈ startRequestFields, (member name d).isSome = true) ∧
      ∃ r, readFields d = some r ∧ Ladder.validateStartRequest r = .ok () := by
  obtain ⟨-, ⟨hsession, hmodel, hpolicy, hjob⟩, hrig, hcontract, hlock, hstatements, hrates⟩ :=
    checkStartRequest_eq_ok.mp h
  obtain ⟨sessionId, hsession, hsessionOk⟩ := (any_stringMember_iff isSafeId_iff).mp hsession
  obtain ⟨modelId, hmodel, hmodelOk⟩ := (any_stringMember_iff isSafeId_iff).mp hmodel
  obtain ⟨policyArtifactId, hpolicy, hpolicyOk⟩ := (any_stringMember_iff isSafeId_iff).mp hpolicy
  obtain ⟨supervisorJobId, hjob, hjobOk⟩ := (any_stringMember_iff isSafeId_iff).mp hjob
  obtain ⟨referenceRigId, hrig, hrigOk⟩ := (any_stringMember_iff isD12Rig_iff).mp hrig
  obtain ⟨contractHash, hcontract, hcontractOk⟩ := (any_stringMember_iff isSha256_iff).mp hcontract
  obtain ⟨lockfileHash, hlock, hlockOk⟩ := (any_stringMember_iff isSha256_iff).mp hlock
  obtain ⟨hgate, hdecision, hallow, hconfirmation⟩ := read_startStatements hstatements
  obtain ⟨hpolicyRate, hsupervisorRate, hfirmware, hfallback⟩ := read_controlRates hrates
  refine ⟨?_, { sessionId, referenceRigId, modelId, contractHash, lockfileHash, policyArtifactId,
                policyExportGate := "exportable", supervisorJobId, supervisorDecision := "policy-advisory",
                supervisorAllowPolicy := true, policyRateHz, supervisorRateHz, firmwareRateLoopUntouched := true,
                missedInferenceFallback, physicalConfirmation := deploymentLadderStartConfirmation },
    ?_, ?_⟩
  · simp only [startRequestFields, List.forall_mem_cons, List.not_mem_nil, false_imp_iff, implies_true, and_true]
    exact ⟨isSome_of_readString hsession, isSome_of_readString hrig, isSome_of_readString hmodel,
      isSome_of_readString hcontract, isSome_of_readString hlock, isSome_of_readString hpolicy,
      isSome_of_readString hgate, isSome_of_readString hjob, isSome_of_readString hdecision,
      isSome_of_readBool hallow, isSome_of_readUInt32 hpolicyRate, isSome_of_readUInt32 hsupervisorRate,
      isSome_of_readBool hfirmware, isSome_of_readString hfallback, isSome_of_readString hconfirmation⟩
  · simp only [readFields, hsession, hrig, hmodel, hcontract, hlock, hpolicy, hgate, hjob, hdecision, hallow,
      hpolicyRate, hsupervisorRate, hfirmware, hfallback, hconfirmation, Option.bind_eq_bind, Option.bind_some,
      Option.pure_def]
  · exact validateStartRequest_eq_ok.mpr ⟨⟨hsessionOk, hmodelOk, hpolicyOk, hjobOk⟩, hrigOk,
      ⟨hcontractOk, hlockOk⟩, ⟨rfl, rfl, rfl⟩, ⟨rfl, rfl, rfl, rfl⟩, rfl⟩

/-- **A start request that the studio accepts is accepted by the shell** if and only if it has no other members. -/
theorem readStartRequest_iff {d : Doc} (h : checkStartRequest d = .ok ()) :
    (∃ r, readStartRequest d = some r ∧ Ladder.validateStartRequest r = .ok ()) ↔
      exactFields startRequestFields d = true := by
  obtain ⟨hmembers, r, hread, hvalid⟩ := fields_of_checkStartRequest h
  rw [← knownFields_iff nodup_startRequestFields hmembers]
  by_cases hknown : knownFields startRequestFields d = true
  · simp [readStartRequest, hknown, hread, hvalid]
  · simp [readStartRequest, hknown]

theorem member_startRequest (name : String) (r : DeploymentLadderStartRequest) :
    member name r.toJson = r.fields.lookup name := member_record name r.fields

theorem stringMember_of_member {d : Doc} {name s : String} (h : member name d = some (string s)) :
    stringMember name d = some (units s) := stringMember_eq_some.mpr h

/-- A member that is a text matches the patterns that the text does. -/
theorem any_of_member {d : Doc} {name s : String} {p : CodeUnits → Bool} (h : member name d = some (string s))
    (hp : p (units s) = true) : (stringMember name d).any p = true := by
  rw [stringMember_of_member h]
  exact hp

/-- **A start request that the shell accepts is accepted by the studio.** -/
theorem checkStartRequest_toJson {r : DeploymentLadderStartRequest} (h : Ladder.validateStartRequest r = .ok ()) :
    checkStartRequest r.toJson = .ok () := by
  obtain ⟨⟨hsession, hmodel, hpolicy, hjob⟩, hrig, ⟨hcontract, hlock⟩, ⟨hgate, hdecision, hallow⟩,
    ⟨hpolicyRate, hsupervisorRate, hfirmware, hfallback⟩, hconfirmation⟩ := validateStartRequest_eq_ok.mp h
  have hmember {name : String} {d : Doc} (hlookup : r.fields.lookup name = some d) : member name r.toJson = some d := by
    rw [member_startRequest, hlookup]
  have hpolicyNumber := strictEquals_number (show 50 < 2 ^ 64 by decide)
  have hsupervisorNumber := strictEquals_number (show 200 < 2 ^ 64 by decide)
  refine checkStartRequest_eq_ok.mpr ⟨rfl, ⟨?_, ?_, ?_, ?_⟩, ?_, ?_, ?_, ?_, ?_⟩
  · exact any_of_member (hmember (by simp [DeploymentLadderStartRequest.fields])) (isSafeId_iff.mpr ⟨_, rfl, hsession⟩)
  · exact any_of_member (hmember (by simp [DeploymentLadderStartRequest.fields, List.lookup_cons]))
      (isSafeId_iff.mpr ⟨_, rfl, hmodel⟩)
  · exact any_of_member (hmember (by simp [DeploymentLadderStartRequest.fields, List.lookup_cons]))
      (isSafeId_iff.mpr ⟨_, rfl, hpolicy⟩)
  · exact any_of_member (hmember (by simp [DeploymentLadderStartRequest.fields, List.lookup_cons]))
      (isSafeId_iff.mpr ⟨_, rfl, hjob⟩)
  · exact any_of_member (hmember (by simp [DeploymentLadderStartRequest.fields, List.lookup_cons]))
      (isD12Rig_iff.mpr ⟨_, rfl, hrig⟩)
  · exact any_of_member (hmember (by simp [DeploymentLadderStartRequest.fields, List.lookup_cons]))
      (isSha256_iff.mpr ⟨_, rfl, hcontract⟩)
  · exact any_of_member (hmember (by simp [DeploymentLadderStartRequest.fields, List.lookup_cons]))
      (isSha256_iff.mpr ⟨_, rfl, hlock⟩)
  · simp [hasMembers, startStatements, member_startRequest, DeploymentLadderStartRequest.fields, List.lookup_cons,
      string, boolean, hgate, hdecision, hallow, hconfirmation, deploymentLadderStartConfirmation]
  · simp [hasMembers, controlRates, member_startRequest, DeploymentLadderStartRequest.fields, List.lookup_cons,
      string, boolean, hpolicyRate, hsupervisorRate, hfirmware, hfallback, policyRateHz, supervisorRateHz,
      missedInferenceFallback]
    exact ⟨hpolicyNumber, hsupervisorNumber⟩

/-- What is written is read back. -/
theorem readStartRequest_toJson {r : DeploymentLadderStartRequest} (h : Ladder.validateStartRequest r = .ok ()) :
    readStartRequest r.toJson = some r := by
  obtain ⟨-, -, -, -, -, -, hrates⟩ := checkStartRequest_eq_ok.mp (checkStartRequest_toJson h)
  have hknown : knownFields startRequestFields r.toJson = true :=
    (knownFields_iff nodup_startRequestFields (fields_of_checkStartRequest (checkStartRequest_toJson h)).1).mpr
      (exactFields_record r.fields)
  obtain ⟨-, -, -, -, ⟨hpolicyRate, hsupervisorRate, -⟩, -⟩ := validateStartRequest_eq_ok.mp h
  obtain ⟨hpolicyRead, hsupervisorRead, -⟩ := read_controlRates hrates
  rw [← hpolicyRate] at hpolicyRead
  rw [← hsupervisorRate] at hsupervisorRead
  have hstring {name s : String} (hlookup : r.fields.lookup name = some (string s)) :
      readString name r.toJson = some s := by
    rw [readString, stringMember_of_member ((member_startRequest name r).trans hlookup), Option.bind_some,
      decodeUnits_units]
  have hbool {name : String} {b : Bool} (hlookup : r.fields.lookup name = some (boolean b)) :
      readBool name r.toJson = some b := by
    rw [readBool, member_startRequest, hlookup]
    rfl
  have hread : ∀ e ∈ [("sessionId", r.sessionId), ("referenceRigId", r.referenceRigId), ("modelId", r.modelId),
      ("contractHash", r.contractHash), ("lockfileHash", r.lockfileHash), ("policyArtifactId", r.policyArtifactId),
      ("policyExportGate", r.policyExportGate), ("supervisorJobId", r.supervisorJobId),
      ("supervisorDecision", r.supervisorDecision), ("missedInferenceFallback", r.missedInferenceFallback),
      ("physicalConfirmation", r.physicalConfirmation)], readString e.1 r.toJson = some e.2 := by
    simp only [List.forall_mem_cons, List.not_mem_nil, false_imp_iff, implies_true, and_true]
    refine ⟨hstring ?_, hstring ?_, hstring ?_, hstring ?_, hstring ?_, hstring ?_, hstring ?_, hstring ?_, hstring ?_,
      hstring ?_, hstring ?_⟩ <;>
    simp [DeploymentLadderStartRequest.fields, List.lookup_cons]
  have hallow : readBool "supervisorAllowPolicy" r.toJson = some r.supervisorAllowPolicy :=
    hbool (by simp [DeploymentLadderStartRequest.fields, List.lookup_cons])
  have hfirmware : readBool "firmwareRateLoopUntouched" r.toJson = some r.firmwareRateLoopUntouched :=
    hbool (by simp [DeploymentLadderStartRequest.fields, List.lookup_cons])
  simp only [List.forall_mem_cons, List.not_mem_nil, false_imp_iff, implies_true, and_true] at hread
  obtain ⟨h1, h2, h3, h4, h5, h6, h7, h8, h9, h10, h11⟩ := hread
  rw [readStartRequest, if_pos hknown]
  simp only [readFields, h1, h2, h3, h4, h5, h6, h7, h8, h9, h10, h11, hallow, hfirmware, hpolicyRead,
    hsupervisorRead, Option.bind_eq_bind, Option.bind_some, Option.pure_def]

/-! ### Statuses of a session -/

/-- The index of a stage. -/
theorem idxOf_stage {i : ℕ} (h : i < stages.length) : (stageOrder.map units).idxOf (units stages[i]) = i := by
  have hnodup : (stageOrder.map units).Nodup := by
    rw [List.nodup_map_iff_inj_on (by decide)]
    exact fun s _ t _ hst => units_inj.mp hst
  have hlength : i < (stageOrder.map units).length := by
    rw [List.length_map]
    exact h
  have hget : (stageOrder.map units)[i] = units stages[i] := List.getElem_map units
  have hindex := hnodup.idxOf_getElem i hlength
  rwa [hget] at hindex

/-- Free operation is the last stage. -/
theorem stage_eq_free_iff {i : ℕ} (h : i < stages.length) : stages[i] = "free" ↔ i + 1 = stages.length :=
  match i, h with
  | 0, _ => by simp [stages]
  | 1, _ => by simp [stages]
  | 2, _ => by simp [stages]
  | 3, _ => by simp [stages]

/-- Nothing is wrong with the status of a session whose request is valid. -/
theorem active_accepted {session : DeploymentLadderSession}
    (valid : Ladder.validateStartRequest session.request = .ok ()) :
    checkStatus (statusForSession session).toJson = .ok () := by
  obtain ⟨⟨hsession, hmodel, hpolicy, hjob⟩, hrig, ⟨hcontract, hlock⟩, -⟩ := validateStartRequest_eq_ok.mp valid
  have hstanding : Standing (statusForSession session) := rfl
  have hstate : (statusForSession session).state =
    if session.stageIndex + 1 = stages.length then "rehearsal-complete" else "rehearsing" := rfl
  have hidentity {name s : String} {p : CodeUnits → Bool}
      (hlookup : (statusForSession session).fields.lookup name = some (string s)) (hp : p (units s) = true) :
      (stringMember name (statusForSession session).toJson).any p = true :=
    any_of_member ((member_toJson name _).trans hlookup) hp
  have hrange := session.inRange
  have hstage : member "currentStage" (statusForSession session).toJson =
      some (string stages[session.stageIndex]) := by
    simp [member_toJson, DeploymentLadderStatus.fields, List.lookup_cons, statusForSession, nullable]
  rw [checkStatus_toJson hstanding (by rw [hstate]; split_ifs <;> simp), if_neg (by rw [hstate]; split_ifs <;> decide),
    checkActive, check_eq_ok, check_eq_ok, forM_eq_ok]
  refine ⟨?_, throwIf_eq_ok.mpr ?_, throwIf_eq_ok.mpr ?_⟩
  · simp only [throwIf_eq_ok, Bool.not_eq_false, List.forall_mem_cons, List.not_mem_nil, false_imp_iff, implies_true,
      and_true]
    refine ⟨hidentity ?_ (isSafeId_iff.mpr ⟨_, rfl, hsession⟩), hidentity ?_ (isSafeId_iff.mpr ⟨_, rfl, hmodel⟩),
      hidentity ?_ (isSafeId_iff.mpr ⟨_, rfl, hpolicy⟩), hidentity ?_ (isSafeId_iff.mpr ⟨_, rfl, hjob⟩)⟩ <;>
    simp [DeploymentLadderStatus.fields, List.lookup_cons, statusForSession, nullable]
  · simp only [not_or, Bool.not_eq_false]
    refine ⟨hidentity ?_ (isD12Rig_iff.mpr ⟨_, rfl, hrig⟩), hidentity ?_ (isSha256_iff.mpr ⟨_, rfl, hcontract⟩),
      hidentity ?_ (isSha256_iff.mpr ⟨_, rfl, hlock⟩), any_of_member hstage ?_⟩
    · simp [DeploymentLadderStatus.fields, List.lookup_cons, statusForSession, nullable]
    · simp [DeploymentLadderStatus.fields, List.lookup_cons, statusForSession, nullable]
    · simp [DeploymentLadderStatus.fields, List.lookup_cons, statusForSession, nullable]
    · exact decide_eq_true (List.mem_map_of_mem (List.getElem_mem _))
  · rw [stringMember_of_member hstage, Option.getD_some, idxOf_stage]
    have hnext : member "nextStage" (statusForSession session).toJson =
        some (nullable (stages[session.stageIndex + 1]?)) := by
      simp [member_toJson, DeploymentLadderStatus.fields, List.lookup_cons, statusForSession]
    have hacknowledged : member "acknowledgedStages" (statusForSession session).toJson =
        some (strings (stages.take (session.stageIndex + 1))) := by
      simp [member_toJson, DeploymentLadderStatus.fields, List.lookup_cons, statusForSession]
    have hprogress : hasMembers [("transitionCount", .number (.int session.stageIndex)),
        ("clientEvidenceBound", .bool true)] (statusForSession session).toJson = true := by
      simp [hasMembers, member_toJson, DeploymentLadderStatus.fields, List.lookup_cons, statusForSession, boolean]
      exact strictEquals_number (session.inRange.trans (by decide))
    have hcomplete : isText "state" "rehearsal-complete" (statusForSession session).toJson =
        decide (session.stageIndex + 1 = stages.length) := by
      rw [isText_state, hstate]
      split_ifs with hlast <;> simp [hlast]
    have hfree : isText "currentStage" "free" (statusForSession session).toJson =
        decide (session.stageIndex + 1 = stages.length) := by
      rw [isText, hstage, string, string, strictEquals_text]
      exact decide_eq_decide.mpr (stage_eq_free_iff session.inRange)
    rw [hnext, hacknowledged, hprogress, hcomplete, hfree, show stages = stageOrder from rfl, sameStringArray_strings,
      strictEquals_nullable]
    simp

theorem parseDeploymentLadderStatus_eq_ok {d : Doc} : parseDeploymentLadderStatus d = .ok d ↔ checkStatus d = .ok () := by
  rw [parseDeploymentLadderStatus, check_eq_ok]
  exact and_iff_left rfl

theorem validateStartRequest_eq_ok_self {d : Doc} : validateStartRequest d = .ok d ↔ checkStartRequest d = .ok () := by
  rw [validateStartRequest, check_eq_ok]
  exact and_iff_left rfl

/-- The status of a runtime whose session, if any, has a valid request is accepted. -/
theorem status_accepted {runtime : DeploymentLadderRuntime}
    (valid : ∀ session, runtime.session = some session → Ladder.validateStartRequest session.request = .ok ()) :
    parseDeploymentLadderStatus runtime.status.toJson = .ok runtime.status.toJson := by
  rw [parseDeploymentLadderStatus_eq_ok, DeploymentLadderRuntime.status]
  cases hsession : runtime.session with
  | none => exact inactive_accepted
  | some session => exact active_accepted (valid session hsession)

end Studio

/-- **The two sides of the ladder agree.** After any calls the session was climbed to its stage by its own advances in
order; a call that returns an error changes nothing; the studio accepts every status that the shell returned or would
return now; a start request that the studio accepts, whatever value it is, is one that an inactive shell accepts if and
only if it has the members of a start request and no others; and a request that an inactive shell accepts is, as it is
written, one that the studio accepts and that has these members. -/
theorem deploymentLadder_agrees :
    (∀ t, system.Reachable t → ∀ session, t.runtime.session = some session → Climbed (accepted t.history) session) ∧
    (∀ (runtime : DeploymentLadderRuntime) (call : LadderCall) (e : String),
      (call.run runtime).1 = .error e → (call.run runtime).2 = runtime) ∧
    (∀ t, system.Reachable t →
      (∀ call status, (call, .ok status) ∈ t.history →
        Studio.parseDeploymentLadderStatus status.toJson = .ok status.toJson) ∧
      Studio.parseDeploymentLadderStatus t.runtime.status.toJson = .ok t.runtime.status.toJson) ∧
    (∀ d, Studio.validateStartRequest d = .ok d →
      ((∃ r, readStartRequest d = some r ∧ validateStartRequest r = .ok () ∧
        ∃ status, (start r { session := none }).1 = .ok status) ↔ exactFields startRequestFields d = true)) ∧
    (∀ r status, (start r { session := none }).1 = .ok status →
      validateStartRequest r = .ok () ∧ Studio.validateStartRequest r.toJson = .ok r.toJson ∧
        exactFields startRequestFields r.toJson = true ∧ readStartRequest r.toJson = some r) := by
  refine ⟨fun t ht => (sound ht).climbed, fun runtime call e => run_error, fun t ht => ⟨fun call status hmem => ?_, ?_⟩,
    fun d hd => ?_, fun r status hr => ?_⟩
  · rw [Studio.parseDeploymentLadderStatus_eq_ok]
    rcases (sound ht).answers call status hmem with rfl | ⟨session, valid, rfl⟩
    · exact Studio.inactive_accepted
    · exact Studio.active_accepted valid
  · exact Studio.status_accepted (sound ht).valid
  · rw [← Studio.readStartRequest_iff (Studio.validateStartRequest_eq_ok_self.mp hd)]
    exact exists_congr fun r => and_congr_right fun _ =>
      and_iff_left_of_imp fun hvalid => start_inactive_iff.mpr hvalid
  · have hvalid := start_inactive_iff.mp ⟨status, hr⟩
    exact ⟨hvalid, Studio.validateStartRequest_eq_ok_self.mpr (Studio.checkStartRequest_toJson hvalid),
      Studio.exactFields_record r.fields, Studio.readStartRequest_toJson hvalid⟩

/-- A request for the rover. -/
def rehearsal : DeploymentLadderStartRequest where
  sessionId := "ladder-session-1"
  referenceRigId := "ref_rover_waveshare-ugv-rover-pt-pi5-ros2"
  modelId := "model-1"
  contractHash := "1111111111111111111111111111111111111111111111111111111111111111"
  lockfileHash := "2222222222222222222222222222222222222222222222222222222222222222"
  policyArtifactId := "policy-1"
  policyExportGate := "exportable"
  supervisorJobId := "supervisor-1"
  supervisorDecision := "policy-advisory"
  supervisorAllowPolicy := true
  policyRateHz := policyRateHz
  supervisorRateHz := supervisorRateHz
  firmwareRateLoopUntouched := true
  missedInferenceFallback := missedInferenceFallback
  physicalConfirmation := deploymentLadderStartConfirmation

theorem rehearsal_valid : validateStartRequest rehearsal = .ok () := by decide +kernel

/-- The request with a member that the shell does not know. -/
def notedRehearsal : Doc := record (rehearsal.fields ++ [("operatorNote", string "second attempt")])

/-- The studio accepts it unchanged, and the shell does not read it. -/
theorem operatorNote_refused :
    Studio.validateStartRequest notedRehearsal = .ok notedRehearsal ∧ readStartRequest notedRehearsal = none := by
  refine ⟨Studio.validateStartRequest_eq_ok_self.mpr ?_, if_neg ?_⟩
  all_goals
    simp only [notedRehearsal, DeploymentLadderStartRequest.fields, rehearsal, record, string, text, List.map,
      List.cons_append, List.nil_append, units_eq_ascii]
    decide +kernel

/-- The calls up to the first advance. -/
def firstCalls : List LadderCall :=
  [.start rehearsal, .advance { sessionId := "ladder-session-1", fromStage := "sitl", toStage := "hitl",
                                physicalConfirmation := hitlConfirmation }]

theorem deploymentLadder_agrees_hitl :
    (∃ session, (afterCalls firstCalls).runtime.session = some session ∧ session.stageIndex = 1 ∧
      Climbed (accepted (afterCalls firstCalls).history) session) ∧
    (LadderCall.run (.start { rehearsal with modelId := "" }) { session := none }).2 = { session := none } ∧
    Studio.parseDeploymentLadderStatus (afterCalls firstCalls).runtime.status.toJson =
      .ok (afterCalls firstCalls).runtime.status.toJson ∧
    (∃ r, readStartRequest rehearsal.toJson = some r ∧ validateStartRequest r = .ok ()) ∧
    Studio.validateStartRequest rehearsal.toJson = .ok rehearsal.toJson := by
  obtain ⟨hclimbed, hunchanged, hstatus, hstart, hconverse⟩ := deploymentLadder_agrees
  have hindex : (afterCalls firstCalls).runtime.session.map DeploymentLadderSession.stageIndex = some 1 := by
    decide +kernel
  obtain ⟨session, hsession, hstage⟩ := Option.map_eq_some_iff.mp hindex
  have hrefused : ∃ e, (LadderCall.run (.start { rehearsal with modelId := "" }) { session := none }).1 = .error e :=
    ⟨"deployment-ladder modelId must use 1 through 128 safe ASCII characters", rfl⟩
  obtain ⟨e, hrefused⟩ := hrefused
  obtain ⟨status, hstarted⟩ := start_inactive_iff.mpr rehearsal_valid
  obtain ⟨-, hchecked, hexact, -⟩ := hconverse rehearsal status hstarted
  obtain ⟨r, hread, hvalid, -⟩ := (hstart rehearsal.toJson hchecked).mpr hexact
  exact ⟨⟨session, hsession, hstage, hclimbed _ (reachable_afterCalls firstCalls) session hsession⟩,
    hunchanged _ _ e hrefused, (hstatus _ (reachable_afterCalls firstCalls)).2, ⟨r, hread, hvalid⟩, hchecked⟩

end Forge.Ladder
