import Forge.Data.Call
import Forge.Data.Except
import Forge.Data.Run
import Forge.Json.Access
import Forge.Json.Characters

/-!
# The deployment ladder of the desktop shell

`ladder.rs`: one rehearsal session that starts at `sitl` and is advanced, with one exact
confirmation for each stage, up to `free`. The methods are calls on the runtime, which
holds the session; the lock around it makes each call one step, so that a run is a list
of calls. A lock that another thread has poisoned is not modelled.

`Moves` says once what a call can do (`run_moves`). The **key result** is `sound`:
whatever was called before, the calls accepted since the session started are its start
and the advances to the stages it has reached, in order.
-/

namespace Forge.Ladder

/-! ### Constants -/

def deploymentLadderSchemaVersion : String := "forge-deployment-ladder/1.0.0"

def deploymentLadderControlSchemaVersion : String := "forge-deployment-ladder-control/1.0.0"

def deploymentLadderMaturity : String := "local-ux-rehearsal"

def deploymentLadderStartConfirmation : String :=
  "I confirm this is a rehearsal-only ladder session and grants no hardware authority"

def deploymentLadderEndConfirmation : String :=
  "I confirm this rehearsal is ended and no hardware authority was granted"

def hitlConfirmation : String :=
  "I physically confirm the controller is bench-connected, actuators are disabled, and the supervisor fallback is ready"

def constrainedConfirmation : String :=
  "I physically confirm the restraint, observer, hardware kill switch, and supervisor fallback are ready"

def freeConfirmation : String :=
  "I physically confirm the declared envelope, observer, hardware kill switch, fresh battery, telemetry recording, and supervisor fallback are ready"

def d12Rigs : List String := ["ref_quad_kakute-h7-source-one-5in", "ref_rover_waveshare-ugv-rover-pt-pi5-ros2"]

def stages : List String := ["sitl", "hitl", "constrained", "free"]

def physicalConfirmationStages : List String := ["hitl", "constrained", "free"]

def policyRateHz : UInt32 := 50

def supervisorRateHz : UInt32 := 200

def missedInferenceFallback : String := "position-hold-or-manual"

/-! ### Requests and statuses -/

structure DeploymentLadderStartRequest where
  sessionId : String
  referenceRigId : String
  modelId : String
  contractHash : String
  lockfileHash : String
  policyArtifactId : String
  policyExportGate : String
  supervisorJobId : String
  supervisorDecision : String
  supervisorAllowPolicy : Bool
  policyRateHz : UInt32
  supervisorRateHz : UInt32
  firmwareRateLoopUntouched : Bool
  missedInferenceFallback : String
  physicalConfirmation : String
deriving DecidableEq

structure DeploymentLadderAdvanceRequest where
  sessionId : String
  fromStage : String
  toStage : String
  physicalConfirmation : String
deriving DecidableEq

structure DeploymentLadderResetRequest where
  sessionId : String
  physicalConfirmation : String
deriving DecidableEq

structure DeploymentLadderStatus where
  schemaVersion : String
  contractSchemaVersion : String
  state : String
  rehearsalMaturity : String
  sessionId : Option String
  referenceRigId : Option String
  modelId : Option String
  contractHash : Option String
  lockfileHash : Option String
  policyArtifactId : Option String
  supervisorJobId : Option String
  currentStage : Option String
  nextStage : Option String
  acknowledgedStages : List String
  stageOrder : List String
  physicalConfirmationStages : List String
  transitionCount : ℕ
  policyRateHz : UInt32
  supervisorRateHz : UInt32
  firmwareRateLoopUntouched : Bool
  missedInferenceFallback : String
  policyAdvisory : Bool
  supervisorAuthority : Bool
  noAutoArm : Bool
  clientEvidenceBound : Bool
  deploymentEvidenceVerified : Bool
  physicalConfirmationEvidenceVerified : Bool
  hardwareExecutionAuthorized : Bool
  deviceIdentityVerified : Bool
  fieldSessionVerified : Bool
  externalBetaEnabled : Bool
deriving DecidableEq

/-- A session is never past the last stage. -/
structure DeploymentLadderSession where
  request : DeploymentLadderStartRequest
  stageIndex : ℕ
  inRange : stageIndex < stages.length

/-- What the lock guards. -/
structure DeploymentLadderRuntime where
  session : Option DeploymentLadderSession

/-! ### Validation -/

/-- `is_safe_id`, one byte of it. -/
def isSafeByte (b : UInt8) : Bool :=
  (0x30 ≤ b && b ≤ 0x39) || (0x61 ≤ b && b ≤ 0x7A) || (0x41 ≤ b && b ≤ 0x5A) || b = 0x2E || b = 0x5F || b = 0x2D

/-- `is_safe_id` -/
def isSafeId (value : String) : Bool :=
  !(utf8Bytes value).isEmpty && decide ((utf8Bytes value).length ≤ 128) && (utf8Bytes value).all isSafeByte

def isHexByte (b : UInt8) : Bool := (0x30 ≤ b && b ≤ 0x39) || (0x61 ≤ b && b ≤ 0x66)

/-- `is_sha256` -/
def isSha256 (value : String) : Bool := (utf8Bytes value).length = 64 && (utf8Bytes value).all isHexByte

/-- `confirmation_for` -/
def confirmationFor (stage : String) : Option String :=
  if stage = "hitl" then some hitlConfirmation
  else if stage = "constrained" then some constrainedConfirmation
  else if stage = "free" then some freeConfirmation
  else none

/-- `validate_start_request` -/
def validateStartRequest (request : DeploymentLadderStartRequest) : Except String Unit := do
  [("sessionId", request.sessionId), ("modelId", request.modelId), ("policyArtifactId", request.policyArtifactId),
      ("supervisorJobId", request.supervisorJobId)].forM fun e =>
    throwIf (isSafeId e.2 = false) ("deployment-ladder " ++ e.1 ++ " must use 1 through 128 safe ASCII characters")
  throwIf (request.referenceRigId ∉ d12Rigs) "deployment-ladder rehearsal requires one frozen D12 reference rig"
  throwIf (isSha256 request.contractHash = false ∨ isSha256 request.lockfileHash = false)
    "deployment-ladder contract and lockfile hashes must be lowercase SHA-256 values"
  throwIf (request.policyExportGate ≠ "exportable" ∨ request.supervisorDecision ≠ "policy-advisory" ∨
      request.supervisorAllowPolicy = false)
    "deployment-ladder rehearsal requires an exportable policy and passing advisory supervisor result"
  throwIf (request.policyRateHz ≠ policyRateHz ∨ request.supervisorRateHz ≠ supervisorRateHz ∨
      request.firmwareRateLoopUntouched = false ∨ request.missedInferenceFallback ≠ missedInferenceFallback)
    "deployment-ladder D9 control-rate authority has drifted"
  throwIf (request.physicalConfirmation ≠ deploymentLadderStartConfirmation)
    "the exact rehearsal-only start confirmation is required"

/-! ### Statuses -/

/-- `inactive_status` -/
def inactiveStatus : DeploymentLadderStatus where
  schemaVersion := deploymentLadderControlSchemaVersion
  contractSchemaVersion := deploymentLadderSchemaVersion
  state := "inactive"
  rehearsalMaturity := deploymentLadderMaturity
  sessionId := none
  referenceRigId := none
  modelId := none
  contractHash := none
  lockfileHash := none
  policyArtifactId := none
  supervisorJobId := none
  currentStage := none
  nextStage := stages[0]?
  acknowledgedStages := []
  stageOrder := stages
  physicalConfirmationStages := physicalConfirmationStages
  transitionCount := 0
  policyRateHz := policyRateHz
  supervisorRateHz := supervisorRateHz
  firmwareRateLoopUntouched := true
  missedInferenceFallback := missedInferenceFallback
  policyAdvisory := true
  supervisorAuthority := true
  noAutoArm := true
  clientEvidenceBound := false
  deploymentEvidenceVerified := false
  physicalConfirmationEvidenceVerified := false
  hardwareExecutionAuthorized := false
  deviceIdentityVerified := false
  fieldSessionVerified := false
  externalBetaEnabled := false

/-- `status_for_session` -/
def statusForSession (session : DeploymentLadderSession) : DeploymentLadderStatus :=
  { inactiveStatus with
    state := if session.stageIndex + 1 = stages.length then "rehearsal-complete" else "rehearsing"
    sessionId := some session.request.sessionId
    referenceRigId := some session.request.referenceRigId
    modelId := some session.request.modelId
    contractHash := some session.request.contractHash
    lockfileHash := some session.request.lockfileHash
    policyArtifactId := some session.request.policyArtifactId
    supervisorJobId := some session.request.supervisorJobId
    currentStage := some (stages.get ⟨session.stageIndex, session.inRange⟩)
    nextStage := stages[session.stageIndex + 1]?
    acknowledgedStages := stages.take (session.stageIndex + 1)
    transitionCount := session.stageIndex
    clientEvidenceBound := true }

/-! ### Methods -/

/-- A method of the runtime. -/
abbrev Method : Type := Call DeploymentLadderRuntime String DeploymentLadderStatus

/-- `DeploymentLadderRuntime::status` -/
def DeploymentLadderRuntime.status (runtime : DeploymentLadderRuntime) : DeploymentLadderStatus :=
  match runtime.session with
  | some session => statusForSession session
  | none => inactiveStatus

/-- `DeploymentLadderRuntime::start` -/
def start (request : DeploymentLadderStartRequest) : Method := do
  Call.ofExcept (validateStartRequest request)
  let runtime ← Call.read
  if runtime.session.isSome then
    Call.throw "a deployment-ladder rehearsal is already active; end it before starting another"
  else do
    let session : DeploymentLadderSession := { request, stageIndex := 0, inRange := by decide }
    Call.modify fun _ => { session := some session }
    pure (statusForSession session)

/-- `DeploymentLadderRuntime::advance` of an active session. A stage without a confirmation would panic. -/
def advanceSession (request : DeploymentLadderAdvanceRequest) (session : DeploymentLadderSession) : Method :=
  if request.sessionId ≠ session.request.sessionId then Call.throw "deployment-ladder session identity mismatch"
  else if h : stages.length ≤ session.stageIndex + 1 then
    Call.throw "the deployment-ladder rehearsal is already at free operation; end it explicitly"
  else
    let expectedFrom := stages.get ⟨session.stageIndex, session.inRange⟩
    let expectedTo := stages.get ⟨session.stageIndex + 1, not_le.mp h⟩
    if request.fromStage ≠ expectedFrom ∨ request.toStage ≠ expectedTo then
      Call.throw ("deployment-ladder transitions cannot be skipped: expected " ++ expectedFrom ++ " -> " ++ expectedTo)
    else match confirmationFor expectedTo with
      | none => Call.throw "every hardware-touching successor has a confirmation"
      | some expectedConfirmation =>
        if request.physicalConfirmation ≠ expectedConfirmation then
          Call.throw ("the exact " ++ expectedTo ++ " physical-confirmation interaction is required")
        else do
          let session : DeploymentLadderSession :=
            { request := session.request, stageIndex := session.stageIndex + 1, inRange := not_le.mp h }
          Call.modify fun _ => { session := some session }
          pure (statusForSession session)

/-- `DeploymentLadderRuntime::advance` -/
def advance (request : DeploymentLadderAdvanceRequest) : Method := do
  let runtime ← Call.read
  match runtime.session with
  | none => Call.throw "no deployment-ladder rehearsal is active"
  | some session => advanceSession request session

/-- `DeploymentLadderRuntime::reset` -/
def reset (request : DeploymentLadderResetRequest) : Method := do
  let runtime ← Call.read
  match runtime.session with
  | none => Call.throw "no deployment-ladder rehearsal is active"
  | some session =>
    if request.sessionId ≠ session.request.sessionId then Call.throw "deployment-ladder session identity mismatch"
    else if request.physicalConfirmation ≠ deploymentLadderEndConfirmation then
      Call.throw "the exact rehearsal-end confirmation is required"
    else do
      Call.modify fun _ => { session := none }
      pure inactiveStatus

/-! ### Runs -/

/-- A call on the runtime. -/
inductive LadderCall where
  | start (request : DeploymentLadderStartRequest)
  | advance (request : DeploymentLadderAdvanceRequest)
  | reset (request : DeploymentLadderResetRequest)
deriving DecidableEq

def LadderCall.run : LadderCall → Method
  | .start request => Ladder.start request
  | .advance request => Ladder.advance request
  | .reset request => Ladder.reset request

/-- The runtime beside everything it was asked and has answered. -/
structure Trace where
  runtime : DeploymentLadderRuntime
  history : List (LadderCall × Except String DeploymentLadderStatus)

/-- The trace after one more call. -/
def Trace.after (t : Trace) (call : LadderCall) : Trace where
  runtime := (call.run t.runtime).2
  history := t.history ++ [(call, (call.run t.runtime).1)]

/-- Arbitrary calls, one after the other. -/
def system : System Trace LadderCall where
  init := { runtime := { session := none }, history := [] }
  step t call t' := t' = t.after call

/-- The trace of these calls. -/
def afterCalls (calls : List LadderCall) : Trace := calls.foldl Trace.after system.init

theorem reachable_afterCalls (calls : List LadderCall) : system.Reachable (afterCalls calls) := by
  have hsteps (t : Trace) (ht : system.Reachable t) : system.Reachable (calls.foldl Trace.after t) := by
    induction calls generalizing t with
    | nil => exact ht
    | cons call calls ih => exact ih _ (ht.tail trivial rfl)
  exact hsteps system.init .refl

/-- The calls that returned a status. -/
def accepted (history : List (LadderCall × Except String DeploymentLadderStatus)) : List LadderCall :=
  (history.filter fun e => e.2.toOption.isSome).map Prod.fst

/-- The advances of a session up to free operation, each with its exact confirmation. -/
def ascent (sessionId : String) : List DeploymentLadderAdvanceRequest :=
  [{ sessionId, fromStage := "sitl", toStage := "hitl", physicalConfirmation := hitlConfirmation },
    { sessionId, fromStage := "hitl", toStage := "constrained", physicalConfirmation := constrainedConfirmation },
    { sessionId, fromStage := "constrained", toStage := "free", physicalConfirmation := freeConfirmation }]

/-- The accepted calls end in the start of a session and its advances to the stages up to the given one. -/
def Climbed (calls : List LadderCall) (session : DeploymentLadderSession) : Prop :=
  ∃ before, calls = before ++ .start session.request ::
    ((ascent session.request.sessionId).take session.stageIndex).map .advance

/-! ### What a call can do -/

/-- What one call does to the runtime, and what it returns. -/
inductive Moves (runtime : DeploymentLadderRuntime) :
    LadderCall → Except String DeploymentLadderStatus × DeploymentLadderRuntime → Prop where
  /-- An error, and nothing is changed. -/
  | refused {call : LadderCall} (e : String) : Moves runtime call (.error e, runtime)
  /-- A valid request starts a session at the first stage. -/
  | started {session : DeploymentLadderSession} (free : runtime.session = none)
      (valid : validateStartRequest session.request = .ok ()) (first : session.stageIndex = 0) :
      Moves runtime (.start session.request) (.ok (statusForSession session), { session := some session })
  /-- The exact request for the next stage takes the session there. -/
  | advanced {session next : DeploymentLadderSession} {request : DeploymentLadderAdvanceRequest}
      (active : runtime.session = some session) (same : next.request = session.request)
      (following : next.stageIndex = session.stageIndex + 1)
      (exact : (ascent session.request.sessionId)[session.stageIndex]? = some request) :
      Moves runtime (.advance request) (.ok (statusForSession next), { session := some next })
  /-- The exact request ends the session. -/
  | ended {session : DeploymentLadderSession} (active : runtime.session = some session) :
      Moves runtime
        (.reset { sessionId := session.request.sessionId, physicalConfirmation := deploymentLadderEndConfirmation })
        (.ok inactiveStatus, { session := none })

/-- The successor of a stage and its confirmation, as the ascent has them. -/
theorem ascent_getElem (sessionId : String) {i : ℕ} (h : i + 1 < stages.length) :
    ∃ confirmation, confirmationFor stages[i + 1] = some confirmation ∧
      (ascent sessionId)[i]? = some { sessionId, fromStage := stages[i], toStage := stages[i + 1],
                                      physicalConfirmation := confirmation } := by
  have hi : i < 3 := Nat.lt_of_succ_lt_succ h
  match i, hi with
  | 0, _ => exact ⟨hitlConfirmation, rfl, rfl⟩
  | 1, _ => exact ⟨constrainedConfirmation, rfl, rfl⟩
  | 2, _ => exact ⟨freeConfirmation, rfl, rfl⟩

theorem start_moves (runtime : DeploymentLadderRuntime) (request : DeploymentLadderStartRequest) :
    Moves runtime (.start request) (start request runtime) := by
  unfold start
  rw [Call.bind_apply]
  cases hvalid : validateStartRequest request with
  | error e => exact .refused e
  | ok u =>
    simp only [Call.ofExcept, Call.bind_apply, Call.read]
    cases hfree : runtime.session with
    | some session => exact .refused _
    | none =>
      let session : DeploymentLadderSession := { request, stageIndex := 0, inRange := by decide }
      exact Moves.started hfree (show validateStartRequest session.request = .ok () from hvalid) rfl

theorem advanceSession_moves {runtime : DeploymentLadderRuntime} {session : DeploymentLadderSession}
    (active : runtime.session = some session) (request : DeploymentLadderAdvanceRequest) :
    Moves runtime (.advance request) (advanceSession request session runtime) := by
  unfold advanceSession
  split_ifs with hid hlast
  · exact .refused _
  · exact .refused _
  · obtain ⟨confirmation, hfor, hexact⟩ := ascent_getElem session.request.sessionId (not_le.mp hlast)
    simp only [List.get_eq_getElem]
    split_ifs with hstages
    · exact .refused _
    rw [hfor]
    dsimp only
    split_ifs with hconfirmation
    · exact .refused _
    -- the request is the one that the ascent has here
    have hrequest : request = { sessionId := session.request.sessionId, fromStage := stages[session.stageIndex],
                                toStage := stages[session.stageIndex + 1], physicalConfirmation := confirmation } := by
      simp only [not_or, Decidable.not_not] at hid hstages hconfirmation
      rw [← hid, ← hstages.1, ← hstages.2, ← hconfirmation]
    let next : DeploymentLadderSession :=
      { request := session.request, stageIndex := session.stageIndex + 1, inRange := not_le.mp hlast }
    exact Moves.advanced active (show next.request = session.request from rfl) rfl (hrequest ▸ hexact)

theorem advance_moves (runtime : DeploymentLadderRuntime) (request : DeploymentLadderAdvanceRequest) :
    Moves runtime (.advance request) (advance request runtime) := by
  unfold advance
  simp only [Call.bind_apply, Call.read]
  cases hsession : runtime.session with
  | none => exact .refused _
  | some session => exact advanceSession_moves hsession request

theorem reset_moves (runtime : DeploymentLadderRuntime) (request : DeploymentLadderResetRequest) :
    Moves runtime (.reset request) (reset request runtime) := by
  unfold reset
  simp only [Call.bind_apply, Call.read]
  cases hsession : runtime.session with
  | none => exact .refused _
  | some session =>
    dsimp only
    split_ifs with hid hconfirmation
    · exact .refused _
    · exact .refused _
    · have hrequest : request = { sessionId := session.request.sessionId,
                                  physicalConfirmation := deploymentLadderEndConfirmation } := by
        simp only [Decidable.not_not] at hid hconfirmation
        rw [← hid, ← hconfirmation]
      subst hrequest
      exact .ended hsession

/-- **Every call is one of the moves.** -/
theorem run_moves (runtime : DeploymentLadderRuntime) (call : LadderCall) : Moves runtime call (call.run runtime) := by
  cases call with
  | start request => exact start_moves runtime request
  | advance request => exact advance_moves runtime request
  | reset request => exact reset_moves runtime request

/-- **A call that returns an error leaves the runtime unchanged.** -/
theorem run_error {runtime : DeploymentLadderRuntime} {call : LadderCall} {e : String}
    (h : (call.run runtime).1 = .error e) : (call.run runtime).2 = runtime := by
  have hmoves := run_moves runtime call
  generalize call.run runtime = r at h hmoves
  cases hmoves with
  | refused e => rfl
  | started free valid first => cases h
  | advanced active same following exact => cases h
  | ended active => cases h

/-- An inactive runtime starts a session exactly for a valid request. -/
theorem start_inactive_iff {request : DeploymentLadderStartRequest} :
    (∃ status, (start request { session := none }).1 = .ok status) ↔ validateStartRequest request = .ok () := by
  rw [start, Call.bind_apply, Call.ofExcept]
  cases validateStartRequest request with
  | error e => exact iff_of_false (fun ⟨_, h⟩ => nomatch h) (fun h => nomatch h)
  | ok u => exact iff_of_true ⟨_, rfl⟩ rfl

/-! ### What holds in every run -/

@[simp] theorem accepted_nil : accepted [] = [] := rfl

theorem accepted_error (history : List (LadderCall × Except String DeploymentLadderStatus)) (call : LadderCall)
    (e : String) : accepted (history ++ [(call, .error e)]) = accepted history := by
  simp [accepted]

theorem accepted_ok (history : List (LadderCall × Except String DeploymentLadderStatus)) (call : LadderCall)
    (status : DeploymentLadderStatus) : accepted (history ++ [(call, .ok status)]) = accepted history ++ [call] := by
  rw [accepted, List.filter_append, List.map_append]
  rfl

/-- What holds of a trace: the session has a valid request and was climbed to its stage, and every status that
was returned is that of no session or of one with a valid request. -/
structure Sound (t : Trace) : Prop where
  valid : ∀ session, t.runtime.session = some session → validateStartRequest session.request = .ok ()
  climbed : ∀ session, t.runtime.session = some session → Climbed (accepted t.history) session
  answers : ∀ call status, (call, .ok status) ∈ t.history → status = inactiveStatus ∨
    ∃ session : DeploymentLadderSession, validateStartRequest session.request = .ok () ∧ status = statusForSession session

/-- One more advance takes the climb one stage further. -/
theorem Climbed.advanced {calls : List LadderCall} {session next : DeploymentLadderSession}
    {request : DeploymentLadderAdvanceRequest} (h : Climbed calls session) (same : next.request = session.request)
    (following : next.stageIndex = session.stageIndex + 1)
    (exact : (ascent session.request.sessionId)[session.stageIndex]? = some request) :
    Climbed (calls ++ [.advance request]) next := by
  obtain ⟨before, hbefore⟩ := h
  refine ⟨before, ?_⟩
  rw [hbefore, same, following, List.take_add_one, exact, Option.toList_some, List.map_append, List.append_assoc,
    List.cons_append]
  rfl

/-- **One call keeps what holds of a trace.** -/
theorem Sound.step {t t' : Trace} {call : LadderCall} (h : Sound t) (hstep : system.step t call t') : Sound t' := by
  obtain rfl := hstep
  have hmoves := run_moves t.runtime call
  unfold Trace.after
  generalize call.run t.runtime = r at hmoves
  cases hmoves with
  | refused e =>
    refine ⟨h.valid, fun session hs => ?_, fun c status hmem => ?_⟩
    · rw [accepted_error]
      exact h.climbed session hs
    · rcases List.mem_append.mp hmem with hold | hnew
      · exact h.answers c status hold
      · cases List.mem_singleton.mp hnew
  | @started session free valid first =>
    refine ⟨?_, ?_, fun c status hmem => ?_⟩
    · rintro _ ⟨⟩
      exact valid
    · rintro _ ⟨⟩
      refine ⟨accepted t.history, ?_⟩
      rw [accepted_ok, first]
      rfl
    · rcases List.mem_append.mp hmem with hold | hnew
      · exact h.answers c status hold
      · cases List.mem_singleton.mp hnew
        exact .inr ⟨session, valid, rfl⟩
  | @advanced session next request active same following exact =>
    have hvalid : validateStartRequest next.request = .ok () := same ▸ h.valid session active
    refine ⟨?_, ?_, fun c status hmem => ?_⟩
    · rintro _ ⟨⟩
      exact hvalid
    · rintro _ ⟨⟩
      rw [accepted_ok]
      exact (h.climbed session active).advanced same following exact
    · rcases List.mem_append.mp hmem with hold | hnew
      · exact h.answers c status hold
      · cases List.mem_singleton.mp hnew
        exact .inr ⟨next, hvalid, rfl⟩
  | ended active =>
    refine ⟨fun _ hs => (nomatch hs), fun _ hs => (nomatch hs), fun c status hmem => ?_⟩
    rcases List.mem_append.mp hmem with hold | hnew
    · exact h.answers c status hold
    · cases List.mem_singleton.mp hnew
      exact .inl rfl

/-- **Key result**: what holds of a trace holds after any calls whatsoever. -/
theorem sound {t : Trace} (h : system.Reachable t) : Sound t :=
  h.invariant ⟨fun _ hs => (nomatch hs), fun _ hs => (nomatch hs), fun _ _ hmem => (nomatch hmem)⟩
    fun _ _ _ ht _ hstep => ht.step hstep

end Forge.Ladder
