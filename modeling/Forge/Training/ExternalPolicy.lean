import Forge.Data.Fixed
import Forge.Json.Python

/-!
# External policies

The worker hands a training job to an external trainer (`FORGE_SB3_TRAIN_CMD`, or a Modal deployment) and
takes the JSON that comes back for a claim, not for a policy: `_external_policy_result` (`jobs.py`) reads a
scorecard out of it, puts the scorecard through the gate (`scorecard.py`), adds what the provider says against
the policy and what disagrees with the job (`_external_policy_authority_reasons`), and marks the policy
exportable if nothing was said.

A task (`tasks.py`) is what the worker itself defines for the job. `Text` is how Python prints a value and
hashes bytes.
-/

namespace Forge.Training

open Python (str lit isEqual)

/-- What the worker uses of Python's library: `str`, and the hexadecimal digest of SHA-256. -/
structure Text where
  str : Doc → CodeUnits
  str_string : ∀ s, str (Python.str s) = s
  sha256 : List UInt8 → CodeUnits

/-! ### The scorecard and its gate -/

structure Scorecard where
  task : CodeUnits
  taskVersion : CodeUnits
  successRate : Float
  robustness : List (CodeUnits × Float)
  energyWh : Float
  trainedOnEstimator : Bool
  lineage : List (CodeUnits × CodeUnits)

structure GateResult where
  exportable : Bool
  reasons : List CodeUnits

def defaultMinSuccess : Float := 0.85

def defaultMinRobust : Float := 0.70

/-- `REQUIRED_LINEAGE` -/
def requiredLineage : List String := ["contractHash", "seed"]

/-- `card.lineage.get(name)` -/
def Scorecard.lineageAt (card : Scorecard) (name : String) : Option CodeUnits := card.lineage.lookup (units name)

/-- `if condition: reasons.append(reason)` -/
def reasonIf (condition : Prop) [Decidable condition] (reason : CodeUnits) : List CodeUnits :=
  if condition then [reason] else []

/-- `f"{x:.2f}"` -/
def fixed2 (x : Float) : CodeUnits := if x.isNaN then units "nan" else utf16 (formatFixed 2 x)

/-- `', '.join(names)` -/
def joined (names : List CodeUnits) : CodeUnits := (names.intersperse (units ", ")).flatten

/-- `gate` with its default thresholds. -/
def gate (card : Scorecard) : GateResult :=
  let weak := (card.robustness.filter fun cell => cell.2 < defaultMinRobust).map Prod.fst
  let missing := requiredLineage.filter fun name => card.lineageAt name = none
  let reasons :=
    reasonIf (card.trainedOnEstimator = false) (units "SIM-004 estimator_smoke: policy trained on ground truth (D8)") ++
    reasonIf (card.successRate < defaultMinSuccess)
      (units "success_rate " ++ fixed2 card.successRate ++ units " < " ++ fixed2 defaultMinSuccess) ++
    reasonIf (card.robustness = []) (units "robustness grid missing") ++
    reasonIf (weak ≠ []) (units "robustness below " ++ fixed2 defaultMinRobust ++ units " in grid cells: " ++
      joined (weak.insertionSort fun a b => codePoints a ≤ codePoints b)) ++
    reasonIf (card.energyWh ≤ 0.0) (units "energyWh must be positive") ++
    reasonIf (missing ≠ []) (units "PRV-002 lineage missing: " ++ joined (missing.map units))
  { exportable := reasons.isEmpty, reasons }

/-! ### Tasks -/

structure TaskPath where
  radiusM : Numeral
  points : List (Numeral × Numeral)

/-- What is read of the environment of a task: the height of the spawn pose, a path, and targets. -/
structure TaskEnv where
  spawnY : Numeral
  path : Option TaskPath
  targets : List Doc

/-- `task_meta`, and the same as a document. -/
structure TaskMeta where
  id : CodeUnits
  suite : CodeUnits
  version : CodeUnits
  coordinateFrame : CodeUnits
  definitionHash : CodeUnits
  archetype : Doc
  env : TaskEnv
  document : Doc

def TaskMeta.isLineFollow (task : TaskMeta) : Bool := task.id = units "line-follow"

def TaskMeta.isWalkToTarget (task : TaskMeta) : Bool := task.id = units "walk-to-target"

/-- `{"line-follow", "walk-to-target"}` -/
def isGroundTask (id : CodeUnits) : Bool := id = units "line-follow" || id = units "walk-to-target"

/-- `d[name]` -/
def item (name : String) (d : Doc) : Except String Doc :=
  match member name d with
  | some m => .ok m
  | none => .error s!"KeyError: '{name}'"

/-- `_task_targets` -/
def taskTargets (task : TaskMeta) : Except String (List Doc) :=
  if task.isLineFollow then do
    let spawnY ← Python.float task.env.spawnY
    let path ← match task.env.path with
      | some path => .ok path
      | none => .error "KeyError: 'path'"
    path.points.mapM fun point => do
      let x ← Python.float point.1
      let z ← Python.float point.2
      let radius ← Python.float path.radiusM
      pure (.object [(units "kind", lit "path-point"),
        (units "xyzM", .array [.leaf (.number (.decimal x)), .leaf (.number (.decimal spawnY)),
          .leaf (.number (.decimal z))]),
        (units "radiusM", .leaf (.number (.decimal radius)))])
  else
    task.env.targets.mapM fun target => do
      let kind ← item "kind" target
      let xyz ← item "xyz" target
      let radius ← item "radiusM" target
      pure (.object [(units "kind", kind), (units "xyzM", xyz), (units "radiusM", radius)])

/-! ### Reading a result -/

/-- `value if isinstance(value, dict) else {}` -/
def orEmpty : Option Doc → Doc
  | some (.object ms) => .object ms
  | _ => .object []

/-- `_number` -/
def number (default : Float) : Option Doc → Except String Float
  | some (.leaf (.number n)) => Python.float n
  | _ => .ok default

/-- `_bool` -/
def boolean (default : Bool) : Option Doc → Bool
  | some (.leaf (.bool b)) => b
  | _ => default

/-- The numbers among the cells of a grid. -/
def robustnessCells : List (CodeUnits × Doc) → Except String (List (CodeUnits × Float))
  | [] => .ok []
  | (key, .leaf (.number n)) :: cells => do
    let x ← Python.float n
    let rest ← robustnessCells cells
    .ok ((key, x) :: rest)
  | _ :: cells => robustnessCells cells

/-- `_robustness` -/
def robustness : Option Doc → Except String (List (CodeUnits × Float))
  | some (.object cells) => robustnessCells cells
  | _ => .ok []

/-- `isinstance(raw, (str, int, float, bool))` -/
def isPlain : Doc → Bool
  | .leaf (.string _) | .leaf (.number _) | .leaf (.bool _) => true
  | _ => false

/-- `_string_dict` -/
def stringDict (text : Text) : Option Doc → List (CodeUnits × CodeUnits)
  | some (.object ms) => (ms.filter fun e => isPlain e.2).map fun e => (e.1, text.str e.2)
  | _ => []

/-- What the worker knows of the job. -/
structure PolicyJob where
  payload : Doc
  task : TaskMeta

section

variable (text : Text) (job : PolicyJob)

/-- `str(payload.get("contractHash", "00" * 32))` -/
def PolicyJob.contractHash : CodeUnits :=
  ((member "contractHash" job.payload).map text.str).getD (List.replicate 64 0x30)

/-- `str(payload.get("seed", "0"))` -/
def PolicyJob.seed : CodeUnits := ((member "seed" job.payload).map text.str).getD (units "0")

/-- `raw_scorecard` -/
def rawScorecard (external : Doc) : Doc := orEmpty (member "scorecard" external)

/-- `raw_scorecard.get(name, external.get(name))` -/
def scored (external : Doc) (name : String) : Option Doc :=
  (member name (rawScorecard external)).or (member name external)

/-- The `Scorecard` that `_external_policy_result` builds. -/
def externalScorecard (external : Doc) : Except String Scorecard := do
  let defaultLineage : Doc := .object [(units "contractHash", str (job.contractHash text)),
    (units "seed", str (job.seed text)),
    (units "codeVersion", (member "codeVersion" external).getD (lit "external-sb3"))]
  let successRate ← number 0.0 (scored external "successRate")
  let robustness ← robustness (scored external "robustness")
  let energyWh ← number 0.0 (scored external "energyWh")
  pure {
    task := text.str (((member "task" (rawScorecard external)).or (member "taskId" external)).getD (str job.task.id))
    taskVersion := text.str (((member "taskVersion" (rawScorecard external)).or
      (member "taskVersion" job.payload)).getD (str job.task.version))
    successRate, robustness, energyWh
    trainedOnEstimator := boolean false (scored external "trainedOnEstimator")
    lineage := stringDict text (some ((scored external "lineage").getD defaultLineage)) }

/-! ### What is said against a policy -/

/-- `value is False` -/
def isFalse : Option Doc → Bool
  | some (.leaf (.bool b)) => !b
  | _ => false

/-- `_provider_reasons` -/
def providerReasons (external : Doc) : List CodeUnits :=
  let scorecard := rawScorecard external
  reasonIf (isFalse (scored external "exportable") = true)
    (units "external scorecard marked policy non-exportable") ++
  match member "reasons" scorecard with
  | some (.array reasons) => reasons.map text.str
  | _ => []

/-- A cell that is no number in [0, 1]. -/
def outsideUnit : Doc → Except String Bool
  | .leaf (.number n) => do
    let x ← Python.float n
    pure !(0.0 ≤ x && x ≤ 1.0)
  | _ => .ok true

/-- Whether a cell is no number in [0, 1]; `any` stops at the first. -/
def anyOutsideUnit : List (CodeUnits × Doc) → Except String Bool
  | [] => .ok false
  | cell :: cells => do
    if ← outsideUnit cell.2 then pure true else anyOutsideUnit cells

def robustnessReasons : Option Doc → Except String (List CodeUnits)
  | some (.object cells) => do
    let bad ← anyOutsideUnit cells
    pure (reasonIf (bad = true) (units "external policy robustness values must be numeric rates in [0, 1]"))
  | _ => .ok []

/-- The members of the task metadata that must be the job's. -/
def TaskMeta.identity (task : TaskMeta) : List (String × CodeUnits) :=
  [("id", task.id), ("suite", task.suite), ("version", task.version), ("coordinateFrame", task.coordinateFrame),
    ("definitionHash", task.definitionHash)]

/-- Every member named here is the string beside it. -/
def hasStrings (expected : List (String × CodeUnits)) (d : Doc) : Bool :=
  expected.all fun e => isEqual (member e.1 d) (str e.2)

def taskReasons (externalTask : Option Doc) (expectedTargets : List Doc) : List CodeUnits :=
  match externalTask with
  | some (.object ms) =>
    if hasStrings job.task.identity (.object ms) = false then
      [units "external policy task metadata does not match worker task authority"]
    else reasonIf (isEqual (member "targets" (.object ms)) (.array expectedTargets) = false)
      (units "external policy targets do not match worker task authority")
  | _ => [units "external policy task metadata does not match worker task authority"]

/-! ### Tensors -/

def policyTensorSchema : String := "forge-policy-tensor"

def policyTensorVersion : String := "2.0.0"

def legacyPolicyTensorVersion : String := "1.0.0"

def legacyPolicyInputLayout : List String :=
  ["estimator.attitude.rollRad", "estimator.attitude.pitchRad", "estimator.attitude.yawRad",
    "estimator.angularRate.rollRadS", "estimator.angularRate.pitchRadS", "estimator.angularRate.yawRadS",
    "target.error.bodyXM", "target.error.bodyYM", "target.error.bodyZM", "battery.normalizedVoltage",
    "powertrain.normalizedMotorCurrent"]

def policyInputLayout : List String :=
  ["estimator.attitude.rollRad", "estimator.attitude.pitchRad", "estimator.attitude.yawRad",
    "estimator.angularRate.rollRadS", "estimator.angularRate.pitchRadS", "estimator.angularRate.yawRadS",
    "estimator.linearVelocity.bodyXMps", "estimator.linearVelocity.bodyYMps", "estimator.linearVelocity.bodyZMps",
    "target.error.bodyXM", "target.error.bodyYM", "target.error.bodyZM", "battery.normalizedVoltage",
    "powertrain.normalizedMotorCurrent"]

def policyOutputLayout : List String := ["throttle", "roll", "pitch", "yaw"]

def groundPolicyTensorSchema : String := "forge-ground-policy-tensor"

def groundPolicyTensorVersion : String := "1.0.0"

def groundPolicyInputLayout : List String :=
  ["estimator.attitude.rollRad", "estimator.attitude.pitchRad", "estimator.attitude.yawRad",
    "estimator.angularRate.rollRadS", "estimator.angularRate.pitchRadS", "estimator.angularRate.yawRadS",
    "estimator.linearVelocity.bodyXMps", "estimator.linearVelocity.bodyZMps", "target.error.bodyXM",
    "target.error.bodyZM", "actuation.normalizedEffort"]

/-- A list of texts of the program as a document. -/
def lits (ss : List String) : Doc := .array ((ss.map units).map str)

/-- `[1, n]` -/
def shape (n : ℕ) : Doc := .array [.leaf (.number (.int 1)), .leaf (.number (.int n))]

/-- An axis of a tensor: its name, its shape `[1, length]` and its layout. -/
def axisIs (name : String) (length : ℕ) (layout : List CodeUnits) : Option Doc → Bool
  | some (.object ms) =>
    isEqual (member "name" (.object ms)) (lit name) && isEqual (member "shape" (.object ms)) (shape length) &&
      isEqual (member "layout" (.object ms)) (.array (layout.map str))
  | _ => false

/-- `value in {...}` for a set of strings; a list or an object has no hash. -/
def inStrings (expected : List String) : Option Doc → Except String Bool
  | some (.array _) => .error "unhashable type: 'list'"
  | some (.object _) => .error "unhashable type: 'dict'"
  | value => .ok (expected.any fun s => isEqual value (lit s))

/-- The tensor of a flight policy, of the current version or the one before. -/
def flightPolicyTensorIsExact (value : Doc) : Except String Bool :=
  let expectedInput :=
    if isEqual (member "schemaVersion" value) (lit legacyPolicyTensorVersion) then legacyPolicyInputLayout
    else policyInputLayout
  if isEqual (member "schema" value) (lit policyTensorSchema) = false then .ok false
  else do
    let known ← inStrings [legacyPolicyTensorVersion, policyTensorVersion] (member "schemaVersion" value)
    pure (known && isEqual (member "coordinateFrame" value) (lit "forge-y-up-rh-m") &&
      isEqual (member "rateHz" value) (.leaf (.number (.int 50))) &&
      axisIs "observations" expectedInput.length (expectedInput.map units) (member "input" value) &&
      axisIs "actions" 4 (policyOutputLayout.map units) (member "output" value))

/-- The layout of an axis that is an object with this name and the shape of its layout. -/
def axisLayout (name : String) : Option Doc → Option (List Doc)
  | some (.object ms) =>
    match member "layout" (.object ms) with
    | some (.array layout) =>
      if isEqual (member "name" (.object ms)) (lit name) && isEqual (member "shape" (.object ms)) (shape layout.length)
      then some layout
      else none
    | _ => none
  | _ => none

/-- The name of the joint in `estimator.jointPosition.<name>Rad`. -/
def jointName (position : Doc) : Option CodeUnits :=
  let lead := units "estimator.jointPosition."
  let last := units "Rad"
  match position with
  | .leaf (.string s) =>
    if lead.isPrefixOf s && last.isSuffixOf s then
      let name := (s.drop lead.length).take (s.length - lead.length - last.length)
      if name = [] then none else some name
    else none
  | _ => none

/-- The names of the joints, which are distinct. -/
def jointNames (names : List CodeUnits) : List Doc → Option (List CodeUnits)
  | [] => some names
  | position :: positions => do
    let name ← jointName position
    if name ∈ names then none else jointNames (names ++ [name]) positions

/-- The layouts of a legged robot: after the common inputs a position and a velocity for each of its joints, and
torques for the same joints. -/
def leggedLayouts (inputLayout outputLayout : List Doc) : Bool :=
  let common := groundPolicyInputLayout.length
  let remaining := inputLayout.drop common
  let jointCount := remaining.length / 2
  if Python.equalsItems (inputLayout.take common) ((groundPolicyInputLayout.map units).map str) = false then false
  else if remaining.length % 2 ≠ 0 then false
  else if ¬(8 ≤ jointCount ∧ jointCount ≤ 24) ∨ outputLayout.length ≠ jointCount then false
  else
    match jointNames [] (remaining.take jointCount) with
    | none => false
    | some names =>
      Python.equalsItems (remaining.drop jointCount)
        ((names.map fun name => units "estimator.jointVelocity." ++ name ++ units "RadS").map str) &&
      Python.equalsItems outputLayout ((names.map fun name => units "jointTorque." ++ name).map str)

/-- `_ground_policy_tensor_is_exact` -/
def groundPolicyTensorIsExact (value : Doc) (task : TaskMeta) : Bool :=
  isEqual (member "schemaVersion" value) (lit groundPolicyTensorVersion) &&
  isEqual (member "coordinateFrame" value) (lit "forge-y-up-rh-m") &&
  isEqual (member "rateHz" value) (.leaf (.number (.int 50))) &&
  match axisLayout "observations" (member "input" value), axisLayout "actions" (member "output" value) with
  | some inputLayout, some outputLayout =>
    if task.isLineFollow then
      Python.equalsItems inputLayout ((groundPolicyInputLayout.map units).map str) &&
        Python.equalsItems outputLayout ((["drive", "turn"].map units).map str)
    else if task.isWalkToTarget then leggedLayouts inputLayout outputLayout
    else false
  | _, _ => false

/-- `_policy_tensor_is_exact` -/
def policyTensorIsExact (value : Doc) (task : TaskMeta) : Except String Bool :=
  if isEqual (member "schema" value) (lit groundPolicyTensorSchema) then .ok (groundPolicyTensorIsExact value task)
  else flightPolicyTensorIsExact value

/-! ### The reasons of the worker -/

/-- What the ONNX header must say. -/
def expectedHeader : List (String × CodeUnits) :=
  [("contractHash", job.contractHash text), ("task", job.task.id), ("taskVersion", job.task.version),
    ("taskDefinitionHash", job.task.definitionHash)]

def ioReasons : Option Doc → Except String (List CodeUnits)
  | some (.object ms) => do
    let headerOk := match member "onnxHeader" (.object ms) with
      | some (.object header) => hasStrings (expectedHeader text job) (.object header)
      | _ => false
    let tensorOk ← match member "tensor" (.object ms) with
      | some (.object tensor) => policyTensorIsExact (.object tensor) job.task
      | _ => .ok false
    pure (reasonIf (headerOk = false)
        (units "external policy ONNX header does not match admitted contract/task authority") ++
      reasonIf (tensorOk = false) (units "external policy tensor contract is unsupported or drifted"))
  | _ => .ok [units "external policy IO contract is missing"]

/-- `5 * 1024 * 1024` -/
def maxOnnxBytes : ℤ := 5 * 1024 * 1024

/-- The declared size, digest and opset are sound, and the bytes have them. -/
def onnxBytesMatch (onnx : Doc) : Bool :=
  match member "modelBase64" onnx, member "byteSize" onnx, member "sha256" onnx with
  | some (.leaf (.string encoded)), some (.leaf (.number (.int expectedSize))), some (.leaf (.string expectedHash)) =>
    if 0 < expectedSize ∧ expectedSize ≤ maxOnnxBytes ∧ isEqual (member "opset" onnx) (.leaf (.number (.int 18))) ∧
        (codePoints expectedHash).length = 64 ∧ ∀ u ∈ expectedHash, u ∈ units "0123456789abcdef" then
      match Python.b64decode encoded with
      | some modelBytes => modelBytes.length = expectedSize && text.sha256 modelBytes = expectedHash
      | none => false
    else false
  | _, _, _ => false

/-- `any(key in onnx for key in ("modelBase64", "byteSize", "sha256"))` -/
def carriesBytes (onnx : Doc) : Bool :=
  ["modelBase64", "byteSize", "sha256"].any fun key => (member key onnx).isSome

def onnxReasons : Option Doc → List CodeUnits
  | some (.object ms) =>
    reasonIf (carriesBytes (.object ms) = true ∧ onnxBytesMatch text (.object ms) = false)
      (units "external policy ONNX bytes do not match their bounded size/digest authority")
  | _ => []

/-- `_external_policy_authority_reasons` -/
def externalPolicyAuthorityReasons (external : Doc) (card : Scorecard) : Except String (List CodeUnits) := do
  let lineage :=
    reasonIf (card.lineageAt "contractHash" ≠ some (job.contractHash text))
      (units "external policy lineage contractHash does not match admitted job authority") ++
    reasonIf (card.task ≠ job.task.id) (units "external policy scorecard task does not match the requested task") ++
    reasonIf (card.taskVersion ≠ job.task.version)
      (units "external policy scorecard taskVersion does not match worker task authority") ++
    reasonIf (card.lineageAt "taskDefinitionHash" ≠ some job.task.definitionHash)
      (units "external policy lineage taskDefinitionHash does not match worker task authority")
  let numbers :=
    reasonIf ((0.0 ≤ card.successRate && card.successRate ≤ 1.0) = false)
      (units "external policy successRate must be in [0, 1]") ++
    reasonIf (1000000000 < card.energyWh) (units "external policy energyWh exceeds the supported bound") ++
    reasonIf (isGroundTask job.task.id = true ∧
        isEqual (member "energySemantics" (rawScorecard external)) (lit "simulated-positive-mechanical-joint-work") = false)
      (units "external ground policy energy semantics are missing or drifted")
  let robustness ← robustnessReasons (scored external "robustness")
  let expectedTargets ← taskTargets job.task
  let io ← ioReasons text job (member "io" external)
  pure (lineage ++ numbers ++ robustness ++ taskReasons job (member "task" external) expectedTargets ++ io ++
    onnxReasons text (member "onnx" external))

/-! ### The result -/

structure ScorecardPayload where
  card : Scorecard
  estimatorSmoke : String
  energySemantics : Option (Option Doc)
  exportable : Bool
  reasons : List CodeUnits

structure OnnxPayload where
  cacheKey : Doc
  opset : Doc
  fixture : Bool
  path : Option Doc
  exportable : Bool
  byteSize : Option Doc
  sha256 : Option Doc
  modelBase64 : Option Doc

structure ExternalPolicy where
  provider : Doc
  algorithm : Doc
  task : Doc
  io : Doc
  domainRandomization : Doc
  onnx : OnnxPayload
  exportGate : String
  scorecard : ScorecardPayload
  archetype : Option Doc
  training : Option Doc
  providerEvidence : Option Doc

/-- `value if isinstance(value, dict) else None` -/
def asRecord : Option Doc → Option Doc
  | some (.object ms) => some (.object ms)
  | _ => none

/-- `value if isinstance(value, list) else []` -/
def orNoItems : Option Doc → List Doc
  | some (.array ts) => ts
  | _ => []

/-- The length of a list as a document. -/
def count (ts : List Doc) : Doc := .leaf (.number (.int ts.length))

/-- `_external_io` -/
def externalIo (external : Doc) : Doc :=
  match asRecord (member "io" external) with
  | some io => io
  | none =>
    let observations := orNoItems (member "observations" external)
    let actions := orNoItems (member "actions" external)
    let header := orEmpty (member "onnxHeader" external)
    .object [(units "observations", .array observations), (units "actions", .array actions),
      (units "onnxHeader", .object [
        (units "contractHash", (member "contractHash" header).getD (str (job.contractHash text))),
        (units "task", (member "task" header).getD (str job.task.id)),
        (units "taskVersion", (member "taskVersion" header).getD (str job.task.version)),
        (units "taskDefinitionHash", (member "taskDefinitionHash" header).getD (str job.task.definitionHash)),
        (units "observationCount", str (text.str ((member "observationCount" header).getD (count observations)))),
        (units "actionCount", str (text.str ((member "actionCount" header).getD (count actions))))])]

/-- `_external_policy_result` -/
def externalPolicyResult (external : Doc) : Except String ExternalPolicy := do
  let card ← externalScorecard text job external
  let gateResult := gate card
  let providerReasons := providerReasons text external
  let authorityReasons ← externalPolicyAuthorityReasons text job external card
  let exportable := gateResult.exportable && providerReasons.isEmpty && authorityReasons.isEmpty
  let onnx := orEmpty (member "onnx" external)
  let ground := isGroundTask job.task.id
  pure {
    provider := (member "provider" external).getD (lit "external-sb3")
    algorithm := ((member "algorithm" external).or (member "algorithm" job.payload)).getD (lit "ppo")
    task := (asRecord (member "task" external)).getD job.task.document
    io := externalIo text job external
    domainRandomization := ((member "domainRandomization" external).or
      (member "domainRandomization" job.payload)).getD (.object [])
    onnx := {
      cacheKey := ((member "cacheKey" onnx).or (member "cacheKey" external)).getD
        (str (units "external-sb3:" ++ ((codePoints (job.contractHash text)).take 12).flatMap encodePoint))
      opset := (member "opset" onnx).getD (.leaf (.number (.int 18)))
      fixture := false
      path := member "path" onnx
      exportable
      byteSize := member "byteSize" onnx
      sha256 := member "sha256" onnx
      modelBase64 := member "modelBase64" onnx }
    exportGate := if exportable then "exportable" else "blocked"
    scorecard := {
      card
      estimatorSmoke := if card.trainedOnEstimator then "passed" else "failed"
      energySemantics := if ground then some (member "energySemantics" (rawScorecard external)) else none
      exportable
      reasons := gateResult.reasons ++ providerReasons ++ authorityReasons }
    archetype := if ground then some ((member "archetype" external).getD job.task.archetype) else none
    training := asRecord (member "training" external)
    providerEvidence := asRecord (member "providerEvidence" external) }

/-- The result that a trainer hands over: an object within the bounds (`run_json_command`, `_run_training`). -/
def trainerResult (label : String) (result : Doc) : Except String Doc := do
  throwIf (isRecord result = false) s!"{label} returned non-object JSON"
  Python.assertBoundedJson label (8 * 1024 * 1024) result
  pure result

/-- `train_policy`, from the result of a trainer on. -/
def trainPolicy (label : String) (result : Doc) : Except String ExternalPolicy := do
  let external ← trainerResult label result
  externalPolicyResult text job external

end

end Forge.Training
