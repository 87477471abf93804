import Forge.Data.Run
import Forge.Data.Except
import Mathlib.Algebra.Order.Field.Rat
import Mathlib.Data.List.Pairwise
import Mathlib.Tactic.Linarith

/-!
# Playing a policy back

The browser plays a trained policy back: at its rate it asks the simulation for a snapshot, runs the
network on it, and keeps the decoded action as the input of the vehicle until the next one. Between
any two `await`s of this chain the rest of the page runs: it may schedule again, or dispose of the
controller. Here the controller is a state, the chain is one of the `Stage`s at which it can be
waiting, and an `Event` is what the page or a settled promise does next.

Playback is meant to fail safe: once it is disposed, has failed or is complete, the vehicle gets the
zero input. **`playback_fails_safe`** finds what this takes: `infer` writes the decoded action
without looking whether the controller was stopped while the network ran.

Times and network values are exact rationals; `hypot` is the engine's own.
-/

namespace Forge.Studio

/-! ### Inputs, targets and the prepared artifact -/

/-- The six commands of a vehicle. -/
structure DriveInput where
  throttle : ℚ
  pitch : ℚ
  roll : ℚ
  yaw : ℚ
  drive : ℚ
  turn : ℚ
deriving DecidableEq

def zeroInput : DriveInput where
  throttle := 0
  pitch := 0
  roll := 0
  yaw := 0
  drive := 0
  turn := 0

def allowedActions : List String := ["throttle", "roll", "pitch", "yaw", "drive", "turn"]

/-- `input[action] = value`, for the allowed actions. -/
def DriveInput.set (input : DriveInput) (action : String) (value : ℚ) : DriveInput :=
  if action = "throttle" then { input with throttle := value }
  else if action = "roll" then { input with roll := value }
  else if action = "pitch" then { input with pitch := value }
  else if action = "yaw" then { input with yaw := value }
  else if action = "drive" then { input with drive := value }
  else if action = "turn" then { input with turn := value }
  else input

inductive TargetKind where
  | position
  | waypoint
deriving DecidableEq

structure PreparedPolicyTarget where
  kind : TargetKind
  radiusM : ℚ

/-- What the controller reads of a prepared artifact, with what `preparePolicyArtifact` has checked of it. -/
structure PreparedPolicyArtifact where
  targets : List PreparedPolicyTarget
  rateHz : ℕ
  inputLayout : List String
  outputName : String
  outputLayout : List String
  targets_ne : targets ≠ []
  one_le_rateHz : 1 ≤ rateHz
  rateHz_le : rateHz ≤ 50
  outputLayout_nodup : outputLayout.Nodup
  outputLayout_allowed : ∀ action ∈ outputLayout, action ∈ allowedActions

/-- What the simulation measures; a number that is not finite is `none`. -/
structure PolicyObservationSnapshot where
  layout : List String
  observations : List (Option ℚ)

/-- A tensor of the runtime, as far as it can be seen before its data is read. -/
structure RuntimeTensor where
  dims : List ℕ
  type : String

/-! ### The controller -/

structure BrowserPolicyController where
  latestInput : DriveInput
  inferenceCountValue : ℕ
  nextInferenceS : ℚ
  pending : Bool
  failureValue : Option String
  disposed : Bool
  releaseStarted : Bool
  targetIndexValue : ℕ
  targetsCompletedValue : ℕ
  taskCompletedValue : Bool
deriving DecidableEq

/-- The controller as its constructor leaves it. -/
def BrowserPolicyController.fresh : BrowserPolicyController where
  latestInput := zeroInput
  inferenceCountValue := 0
  nextInferenceS := 0
  pending := false
  failureValue := none
  disposed := false
  releaseStarted := false
  targetIndexValue := 0
  targetsCompletedValue := 0
  taskCompletedValue := false

/-- Where a chain of promises waits. -/
inductive Stage where
  /-- `schedule` awaits its snapshot. -/
  | snapshot
  /-- `processSnapshot` awaits the snapshot for the next target. -/
  | next
  /-- `infer` awaits `session.run`. -/
  | running
  /-- `infer` awaits `candidate.getData`. -/
  | reading
  /-- The work has settled, with the message of its error if it was rejected; `catch` is due. -/
  | settled (error : Option String)
  /-- `finally` is due. -/
  | caught
deriving DecidableEq

/-- How the promise that a chain waits for settles. -/
inductive Settlement where
  | rejected (message : String)
  | snapshot (snapshot : PolicyObservationSnapshot)
  /-- The tensors that `session.run` returns, by name. -/
  | results (results : List (String × RuntimeTensor))
  | data (values : List (Option ℚ))
  /-- The chain has settled: its next handler runs. -/
  | turn

def assertExactList (actual expected : List String) (label : String) : Except String Unit :=
  if actual ≠ expected then .error (label ++ " mismatch") else .ok ()

def assertShape (actual expected : List ℕ) (label : String) : Except String Unit :=
  if actual ≠ expected then .error (label ++ " does not match") else .ok ()

section

variable (hypot : List ℚ → ℚ) (artifact : PreparedPolicyArtifact)

/-- What `infer` and `currentTargetReached` check of a snapshot. -/
def finiteObservations (snapshot : PolicyObservationSnapshot) : Except String (List ℚ) := do
  assertExactList snapshot.layout artifact.inputLayout "runtime core observation layout"
  if snapshot.observations.length ≠ artifact.inputLayout.length then
    .error "runtime core observation count changed"
  match snapshot.observations.mapM id with
  | none => .error "runtime core observation is non-finite"
  | some observations => .ok observations

/-- The three components of the estimator's target error. -/
def targetErrorNames : List String := ["target.error.bodyXM", "target.error.bodyYM", "target.error.bodyZM"]

def currentTargetReached (targetIndex : ℕ) (snapshot : PolicyObservationSnapshot) : Except String Bool :=
  match artifact.targets[targetIndex]? with
  | none => .error "Cannot read properties of undefined (reading 'kind')"
  | some target =>
    if target.kind ≠ .waypoint then .ok false
    else do
      let observations ← finiteObservations artifact snapshot
      match targetErrorNames.mapM fun name => artifact.inputLayout.idxOf? name with
      | none => .error "runtime tensor omits estimator target error"
      | some indices => .ok (hypot (indices.map fun index => observations.getD index 0) ≤ target.radiusM)

/-- `infer` up to the call of `session.run`. -/
def infer (snapshot : PolicyObservationSnapshot) : Except String Unit := do
  let _ ← finiteObservations artifact snapshot
  .ok ()

/-- `infer` from the results of the session up to the call of `getData`. -/
def inferResults (results : List (String × RuntimeTensor)) : Except String Unit :=
  match results.lookup artifact.outputName with
  | none => .error "ONNX runtime omitted the declared action tensor"
  | some candidate => do
    assertShape candidate.dims [1, artifact.outputLayout.length] "runtime ONNX output shape"
    if candidate.type ≠ "float32" then .error "runtime ONNX output must be float32" else .ok ()

/-- `infer` from the data of the action tensor to the decoded input. -/
def inferData (values : List (Option ℚ)) : Except String DriveInput :=
  match values.mapM id with
  | none => .error "runtime ONNX action tensor is malformed or non-finite"
  | some numbers =>
    if numbers.length ≠ artifact.outputLayout.length then
      .error "runtime ONNX action tensor is malformed or non-finite"
    else if numbers.any fun value => value < -1.000001 || 1.000001 < value then
      .error "runtime ONNX action exceeds normalized motion bounds"
    else
      .ok ((artifact.outputLayout.zip numbers).foldl (fun next (action, value) =>
        next.set action (max (-1) (min 1 value))) zeroInput)

/-- `processSnapshot` from the top of its loop to the next `await`. -/
def processSnapshot (c : BrowserPolicyController) (current : PolicyObservationSnapshot) :
    BrowserPolicyController × Stage :=
  if c.disposed then (c, .settled none)
  else match currentTargetReached hypot artifact c.targetIndexValue current with
    | .error message => (c, .settled (some message))
    | .ok true =>
      if artifact.targets.length ≤ c.targetsCompletedValue + 1 then
        ({ c with targetsCompletedValue := c.targetsCompletedValue + 1, taskCompletedValue := true,
                  latestInput := zeroInput }, .settled none)
      else
        ({ c with targetsCompletedValue := c.targetsCompletedValue + 1,
                  targetIndexValue := c.targetIndexValue + 1 }, .next)
    | .ok false =>
      match infer artifact current with
      | .error message => (c, .settled (some message))
      | .ok () => (c, .running)

/-- The work of a chain, from a settled promise to the next `await`. -/
def advance (c : BrowserPolicyController) : Stage → Settlement → Option (BrowserPolicyController × Stage)
  | .snapshot, .snapshot current =>
    some (if c.disposed then (c, .settled none) else processSnapshot hypot artifact c current)
  | .next, .snapshot current => some (processSnapshot hypot artifact c current)
  | .running, .results results =>
    match inferResults artifact results with
    | .error message => some (c, .settled (some message))
    | .ok () => some (c, .reading)
  | .reading, .data values =>
    match inferData artifact values with
    | .error message => some (c, .settled (some message))
    | .ok next =>
      some ({ c with latestInput := next, inferenceCountValue := c.inferenceCountValue + 1 }, .settled none)
  | .snapshot, .rejected message | .next, .rejected message | .running, .rejected message
  | .reading, .rejected message => some (c, .settled (some message))
  | _, _ => none

/-- The states of the work of `create`: it processes its own snapshot before anyone holds the controller. -/
inductive Creating : BrowserPolicyController → Stage → Prop where
  | start (initial : PolicyObservationSnapshot) :
    Creating (processSnapshot hypot artifact .fresh initial).1 (processSnapshot hypot artifact .fresh initial).2
  | settle {c c' : BrowserPolicyController} {stage stage' : Stage} {s : Settlement} :
    Creating c stage → advance hypot artifact c stage s = some (c', stage') → Creating c' stage'

/-- The controllers that `create` resolves with. -/
def Created (c : BrowserPolicyController) : Prop :=
  ∃ c₀, Creating hypot artifact c₀ (.settled none) ∧ c = { c₀ with nextInferenceS := 1 / artifact.rateHz }

/-! ### The page -/

/-- A controller on its page: the chains of promises that have not ended, the times at which inferences
started, newest first, and how often the session was released. -/
structure Playback where
  controller : BrowserPolicyController
  chains : List Stage
  starts : List ℚ
  releases : ℕ

/-- The controller as `create` hands it over; its first inference started at time 0. -/
def Playback.ofCreated (c : BrowserPolicyController) : Playback where
  controller := c
  chains := []
  starts := [0]
  releases := 0

inductive Event where
  | schedule (elapsedS : ℚ)
  | dispose
  /-- The promise that chain `k` waits for settles. -/
  | settle (k : ℕ) (s : Settlement)

/-- `schedule` returns at once. An empty message counts as no failure. -/
def BrowserPolicyController.idles (c : BrowserPolicyController) (elapsedS : ℚ) : Bool :=
  c.disposed || c.pending || (c.failureValue.any fun message => message ≠ "") || c.taskCompletedValue ||
    elapsedS + 1e-9 < c.nextInferenceS

def schedule (elapsedS : ℚ) (p : Playback) : Playback :=
  if p.controller.idles elapsedS then p
  else
    { p with controller := { p.controller with nextInferenceS := elapsedS + 1 / artifact.rateHz, pending := true }
             chains := .snapshot :: p.chains
             starts := elapsedS :: p.starts }

def releaseRuntime (p : Playback) : Playback :=
  if p.controller.releaseStarted then p
  else { p with controller := { p.controller with releaseStarted := true }, releases := p.releases + 1 }

def dispose (p : Playback) : Playback :=
  if p.controller.disposed then p
  else
    let p := { p with controller := { p.controller with disposed := true, latestInput := zeroInput } }
    if p.controller.pending then p else releaseRuntime p

/-- The handler of `catch`. -/
def handleError (error : Option String) (c : BrowserPolicyController) : BrowserPolicyController :=
  match error with
  | none => c
  | some message =>
    if c.disposed then c else { c with latestInput := zeroInput, failureValue := some message }

/-- The handler of `finally`. -/
def handleFinally (k : ℕ) (p : Playback) : Playback :=
  let p := { p with controller := { p.controller with pending := false }, chains := p.chains.eraseIdx k }
  if p.controller.disposed then releaseRuntime p else p

def settle (k : ℕ) (s : Settlement) (p : Playback) : Playback :=
  match p.chains[k]?, s with
  | some (.settled error), .turn =>
    { p with controller := handleError error p.controller, chains := p.chains.set k .caught }
  | some .caught, .turn => handleFinally k p
  | some stage, s =>
    match advance hypot artifact p.controller stage s with
    | some (c, stage') => { p with controller := c, chains := p.chains.set k stage' }
    | none => p
  | none, _ => p

/-- What an event does to the page; an event that no promise of the page waits for does nothing. -/
def exec (p : Playback) : Event → Playback
  | .schedule elapsedS => schedule artifact elapsedS p
  | .dispose => dispose p
  | .settle k s => settle hypot artifact k s p

end

/-! ### What a chain can do -/

section

variable {hypot : List ℚ → ℚ} {artifact : PreparedPolicyArtifact}

/-- The work of a chain is over. -/
def Stage.done : Stage → Bool
  | .settled _ | .caught => true
  | .snapshot | .next | .running | .reading => false

/-- What processing a snapshot can do to a controller. -/
inductive Moves (artifact : PreparedPolicyArtifact) (c : BrowserPolicyController) :
    BrowserPolicyController → Stage → Prop where
  | keep (stage : Stage) : Moves artifact c c stage
  | complete (h : artifact.targets.length ≤ c.targetsCompletedValue + 1) :
    Moves artifact c
      { c with targetsCompletedValue := c.targetsCompletedValue + 1, taskCompletedValue := true,
               latestInput := zeroInput } (.settled none)
  | nextTarget (h : c.targetsCompletedValue + 1 < artifact.targets.length) :
    Moves artifact c
      { c with targetsCompletedValue := c.targetsCompletedValue + 1,
               targetIndexValue := c.targetIndexValue + 1 } .next

theorem processSnapshot_moves (hypot : List ℚ → ℚ) (artifact : PreparedPolicyArtifact) (c : BrowserPolicyController)
    (current : PolicyObservationSnapshot) :
    Moves artifact c (processSnapshot hypot artifact c current).1 (processSnapshot hypot artifact c current).2 := by
  rw [processSnapshot]
  split
  · exact .keep _
  · split
    · exact .keep _
    · split
      · next hle => exact .complete hle
      · next hlt => exact .nextTarget (not_le.mp hlt)
    · split <;> exact .keep _

/-- What a chain can do from one `await` to the next: it processes a snapshot, fails, or delivers an action. -/
theorem advance_cases {c c' : BrowserPolicyController} {stage stage' : Stage} {s : Settlement}
    (h : advance hypot artifact c stage s = some (c', stage')) :
    stage.done = false ∧ (Moves artifact c c' stage' ∨
      ∃ values next, stage = .reading ∧ s = .data values ∧ inferData artifact values = .ok next ∧
        c' = { c with latestInput := next, inferenceCountValue := c.inferenceCountValue + 1 } ∧
        stage' = .settled none) := by
  unfold advance at h
  split at h
  · next current =>
    obtain h := Option.some.inj h
    split at h
    · obtain ⟨rfl, rfl⟩ := Prod.mk.inj h
      exact ⟨rfl, .inl (.keep _)⟩
    · have hmoves := processSnapshot_moves hypot artifact c current
      rw [h] at hmoves
      exact ⟨rfl, .inl hmoves⟩
  · next current =>
    have hmoves := processSnapshot_moves hypot artifact c current
    rw [Option.some.inj h] at hmoves
    exact ⟨rfl, .inl hmoves⟩
  · split at h <;> obtain ⟨rfl, rfl⟩ := Prod.mk.inj (Option.some.inj h) <;> exact ⟨rfl, .inl (.keep _)⟩
  · next values =>
    split at h <;> obtain ⟨rfl, rfl⟩ := Prod.mk.inj (Option.some.inj h)
    · exact ⟨rfl, .inl (.keep _)⟩
    · next input hinput => exact ⟨rfl, .inr ⟨values, input, rfl, rfl, hinput, rfl, rfl⟩⟩
  · obtain ⟨rfl, rfl⟩ := Prod.mk.inj (Option.some.inj h)
    exact ⟨rfl, .inl (.keep _)⟩
  · obtain ⟨rfl, rfl⟩ := Prod.mk.inj (Option.some.inj h)
    exact ⟨rfl, .inl (.keep _)⟩
  · obtain ⟨rfl, rfl⟩ := Prod.mk.inj (Option.some.inj h)
    exact ⟨rfl, .inl (.keep _)⟩
  · obtain ⟨rfl, rfl⟩ := Prod.mk.inj (Option.some.inj h)
    exact ⟨rfl, .inl (.keep _)⟩
  · exact nomatch h

/-- The targets of a controller whose chain is at `stage`. -/
structure Track (artifact : PreparedPolicyArtifact) (c : BrowserPolicyController) (stage : Stage) : Prop where
  index_lt : c.targetIndexValue < artifact.targets.length
  completed_eq : c.taskCompletedValue = false → c.targetsCompletedValue = c.targetIndexValue
  completed_le : c.targetsCompletedValue ≤ artifact.targets.length
  completed_done : c.taskCompletedValue = true → stage.done = true
  completed_input : c.taskCompletedValue = true → c.latestInput = zeroInput

/-- Where the task is open, the last two fields say nothing. -/
theorem Track.of_open {c : BrowserPolicyController} {stage : Stage} (hopen : c.taskCompletedValue = false)
    (hindex : c.targetIndexValue < artifact.targets.length) (heq : c.targetsCompletedValue = c.targetIndexValue) :
    Track artifact c stage where
  index_lt := hindex
  completed_eq _ := heq
  completed_le := heq.trans_le hindex.le
  completed_done hc := absurd hc (by rw [hopen]; decide)
  completed_input hc := absurd hc (by rw [hopen]; decide)

theorem Track.is_open {c : BrowserPolicyController} {stage : Stage} (h : Track artifact c stage)
    (hdone : stage.done = false) : c.taskCompletedValue = false := by
  cases hc : c.taskCompletedValue with
  | false => rfl
  | true => exact absurd (h.completed_done hc) (by rw [hdone]; decide)

theorem Track.moves {c c' : BrowserPolicyController} {stage stage' : Stage} (h : Track artifact c stage)
    (hdone : stage.done = false) (hm : Moves artifact c c' stage') : Track artifact c' stage' := by
  have hopen := h.is_open hdone
  have heq := h.completed_eq hopen
  have hlt := h.index_lt
  cases hm with
  | keep => exact .of_open hopen hlt heq
  | complete =>
    refine ⟨hlt, nofun, ?_, fun _ => rfl, fun _ => rfl⟩
    show c.targetsCompletedValue + 1 ≤ artifact.targets.length
    omega
  | nextTarget hnext =>
    refine .of_open hopen ?_ (congrArg (· + 1) heq)
    show c.targetIndexValue + 1 < artifact.targets.length
    omega

theorem Track.advance {c c' : BrowserPolicyController} {stage stage' : Stage} {s : Settlement}
    (h : Track artifact c stage) (hadv : advance hypot artifact c stage s = some (c', stage')) :
    Track artifact c' stage' := by
  obtain ⟨hdone, hm | ⟨values, next, -, -, -, rfl, rfl⟩⟩ := advance_cases hadv
  · exact h.moves hdone hm
  · have hopen := h.is_open hdone
    exact .of_open hopen h.index_lt (h.completed_eq hopen)

/-- What no chain touches before its handlers run, and what it only raises. -/
structure Frame (c c' : BrowserPolicyController) : Prop where
  nextInferenceS : c'.nextInferenceS = c.nextInferenceS
  pending : c'.pending = c.pending
  failureValue : c'.failureValue = c.failureValue
  disposed : c'.disposed = c.disposed
  releaseStarted : c'.releaseStarted = c.releaseStarted
  completed : c.taskCompletedValue = true → c'.taskCompletedValue = true
  progress : c.targetsCompletedValue ≤ c'.targetsCompletedValue

theorem Moves.frame {c c' : BrowserPolicyController} {stage' : Stage} (hm : Moves artifact c c' stage') :
    Frame c c' := by
  cases hm with
  | keep => exact ⟨rfl, rfl, rfl, rfl, rfl, id, le_rfl⟩
  | complete => exact ⟨rfl, rfl, rfl, rfl, rfl, fun _ => rfl, Nat.le_succ _⟩
  | nextTarget => exact ⟨rfl, rfl, rfl, rfl, rfl, id, Nat.le_succ _⟩

theorem frame_of_advance {c c' : BrowserPolicyController} {stage stage' : Stage} {s : Settlement}
    (hadv : advance hypot artifact c stage s = some (c', stage')) : Frame c c' := by
  obtain ⟨-, hm | ⟨values, next, -, -, -, rfl, -⟩⟩ := advance_cases hadv
  · exact hm.frame
  · exact ⟨rfl, rfl, rfl, rfl, rfl, id, le_rfl⟩

/-! ### Creation -/

theorem Creating.track {c : BrowserPolicyController} {stage : Stage} (h : Creating hypot artifact c stage) :
    Track artifact c stage := by
  induction h with
  | start initial =>
    have hfresh : Track artifact .fresh .snapshot := .of_open rfl (List.length_pos_iff.mpr artifact.targets_ne) rfl
    exact hfresh.moves rfl (processSnapshot_moves _ _ _ initial)
  | settle _ hadv ih => exact ih.advance hadv

/-- Nothing but the targets and the input changes while a controller is created. -/
theorem Creating.frame {c : BrowserPolicyController} {stage : Stage} (h : Creating hypot artifact c stage) :
    Frame .fresh c := by
  induction h with
  | start initial => exact (processSnapshot_moves _ artifact _ initial).frame
  | settle _ hadv ih =>
    have hframe := frame_of_advance hadv
    exact ⟨hframe.nextInferenceS.trans ih.nextInferenceS, hframe.pending.trans ih.pending,
      hframe.failureValue.trans ih.failureValue, hframe.disposed.trans ih.disposed,
      hframe.releaseStarted.trans ih.releaseStarted, fun hc => hframe.completed (ih.completed hc),
      ih.progress.trans hframe.progress⟩

/-! ### Runs -/

/-- Inferences start at the rate of the policy, up to the tolerance of `schedule`. -/
def Spaced (artifact : PreparedPolicyArtifact) (starts : List ℚ) : Prop :=
  starts.IsChain fun later earlier : ℚ => earlier + 1 / artifact.rateHz - 1e-9 ≤ later

/-- Playback is over: disposed, failed or complete. -/
def Playback.Stopped (p : Playback) : Prop :=
  p.controller.disposed = true ∨ p.controller.failureValue ≠ none ∨ p.controller.taskCompletedValue = true

/-- A stopped controller has the zero input. -/
def Quiet (p : Playback) : Prop := p.Stopped → p.controller.latestInput = zeroInput

instance (p : Playback) : Decidable p.Stopped :=
  inferInstanceAs (Decidable (p.controller.disposed = true ∨ p.controller.failureValue ≠ none ∨
    p.controller.taskCompletedValue = true))

instance (p : Playback) : Decidable (Quiet p) :=
  inferInstanceAs (Decidable (p.Stopped → p.controller.latestInput = zeroInput))

/-- The invariant of the page. -/
structure Inv (artifact : PreparedPolicyArtifact) (p : Playback) : Prop where
  chain : p.controller.pending = false ∧ p.chains = [] ∨
    p.controller.pending = true ∧ ∃ stage, p.chains = [stage]
  track : Track artifact p.controller (p.chains.headD .caught)
  spaced : Spaced artifact p.starts
  last : ∃ t earlier, p.starts = t :: earlier ∧ p.controller.nextInferenceS = t + 1 / artifact.rateHz
  releases : p.releases = if p.controller.releaseStarted then 1 else 0
  released : p.controller.releaseStarted = true ↔ p.controller.disposed = true ∧ p.controller.pending = false

theorem inv_ofCreated {c : BrowserPolicyController} (h : Created hypot artifact c) :
    Inv artifact (.ofCreated c) := by
  obtain ⟨c₀, hc, rfl⟩ := h
  have hframe := hc.frame
  have htrack := hc.track
  have hpending : c₀.pending = false := hframe.pending
  have hdisposed : c₀.disposed = false := hframe.disposed
  have hrelease : c₀.releaseStarted = false := hframe.releaseStarted
  refine ⟨.inl ⟨hpending, rfl⟩, ?_, List.IsChain.singleton _, ⟨0, [], rfl, (zero_add _).symm⟩, ?_, ?_⟩
  · exact ⟨htrack.index_lt, htrack.completed_eq, htrack.completed_le, fun _ => rfl, htrack.completed_input⟩
  · show 0 = if c₀.releaseStarted then 1 else 0
    rw [hrelease]
    rfl
  · show c₀.releaseStarted = true ↔ c₀.disposed = true ∧ c₀.pending = false
    rw [hrelease, hdisposed]
    simp

theorem Created.quiet {c : BrowserPolicyController} (h : Created hypot artifact c) : Quiet (.ofCreated c) := by
  obtain ⟨c₀, hc, rfl⟩ := h
  have hdisposed : c₀.disposed = false := hc.frame.disposed
  have hfailure : c₀.failureValue = none := hc.frame.failureValue
  rintro (h | h | h)
  · exact absurd (hdisposed.symm.trans h) (by decide)
  · exact absurd hfailure h
  · exact hc.track.completed_input h

theorem BrowserPolicyController.idles_eq_false {c : BrowserPolicyController} {elapsedS : ℚ}
    (h : c.idles elapsedS = false) : c.disposed = false ∧ c.pending = false ∧ c.taskCompletedValue = false ∧
      c.nextInferenceS ≤ elapsedS + 1e-9 ∧ ∀ message, c.failureValue = some message → message = "" := by
  simp only [idles, Bool.or_eq_false_iff, decide_eq_false_iff_not, not_lt] at h
  obtain ⟨⟨⟨⟨hdisposed, hpending⟩, hfailure⟩, hcompleted⟩, htime⟩ := h
  refine ⟨hdisposed, hpending, hcompleted, htime, fun message hmessage => ?_⟩
  rw [hmessage] at hfailure
  simpa using hfailure

theorem Inv.schedule {p : Playback} (h : Inv artifact p) (elapsedS : ℚ) :
    Inv artifact (schedule artifact elapsedS p) := by
  rw [Studio.schedule]
  split
  · exact h
  · next hidles =>
    obtain ⟨hdisposed, hpending, hcompleted, htime, -⟩ :=
      BrowserPolicyController.idles_eq_false (Bool.eq_false_iff.mpr hidles)
    have hchains : p.chains = [] := by
      obtain ⟨-, hchains⟩ | ⟨hpending', -⟩ := h.chain
      · exact hchains
      · rw [hpending] at hpending'
        exact absurd hpending' (by decide)
    have hrelease : p.controller.releaseStarted = false := by
      cases hstarted : p.controller.releaseStarted with
      | false => rfl
      | true => exact absurd (h.released.mp hstarted).1 (by rw [hdisposed]; decide)
    refine ⟨.inr ⟨rfl, .snapshot, by rw [hchains]⟩, ?_, ?_, ⟨elapsedS, p.starts, rfl, rfl⟩, h.releases, ?_⟩
    · exact .of_open hcompleted h.track.index_lt (h.track.completed_eq hcompleted)
    · obtain ⟨t, earlier, hstarts, hnext⟩ := h.last
      have hspaced := h.spaced
      rw [hstarts] at hspaced ⊢
      refine List.isChain_cons_cons.mpr ⟨?_, hspaced⟩
      rw [hnext] at htime
      linarith
    · show p.controller.releaseStarted = true ↔ p.controller.disposed = true ∧ true = false
      rw [hrelease, hdisposed]
      simp

/-- A page that waits for nothing may release the session. -/
theorem Inv.releaseRuntime {p : Playback} (hdisposed : p.controller.disposed = true)
    (hpending : p.controller.pending = false) (hchains : p.chains = []) (htrack : Track artifact p.controller .caught)
    (hspaced : Spaced artifact p.starts)
    (hlast : ∃ t earlier, p.starts = t :: earlier ∧ p.controller.nextInferenceS = t + 1 / artifact.rateHz)
    (hreleases : p.releases = if p.controller.releaseStarted then 1 else 0) : Inv artifact (releaseRuntime p) := by
  rw [Studio.releaseRuntime]
  split
  · next hstarted =>
    exact ⟨.inl ⟨hpending, hchains⟩, by rw [hchains]; exact htrack, hspaced, hlast, hreleases,
      ⟨fun _ => ⟨hdisposed, hpending⟩, fun _ => hstarted⟩⟩
  · next hstarted =>
    rw [if_neg hstarted] at hreleases
    refine ⟨.inl ⟨hpending, hchains⟩, ?_, hspaced, hlast, by rw [hreleases]; rfl,
      ⟨fun _ => ⟨hdisposed, hpending⟩, fun _ => rfl⟩⟩
    rw [hchains]
    exact ⟨htrack.index_lt, htrack.completed_eq, htrack.completed_le, fun _ => rfl, htrack.completed_input⟩

theorem Inv.dispose {p : Playback} (h : Inv artifact p) : Inv artifact (dispose p) := by
  rw [Studio.dispose]
  split
  · exact h
  · next hdisposed =>
    have hdisposed := Bool.eq_false_iff.mpr hdisposed
    have htrack : Track artifact { p.controller with disposed := true, latestInput := zeroInput }
        (p.chains.headD .caught) :=
      ⟨h.track.index_lt, h.track.completed_eq, h.track.completed_le, h.track.completed_done, fun _ => rfl⟩
    dsimp only
    split
    · next hpending =>
      refine ⟨h.chain, htrack, h.spaced, h.last, h.releases, ?_⟩
      show p.controller.releaseStarted = true ↔ true = true ∧ p.controller.pending = false
      rw [h.released, hdisposed, hpending]
      simp
    · next hpending =>
      have hpending := Bool.eq_false_iff.mpr hpending
      obtain ⟨-, hchains⟩ | ⟨hpending', -⟩ := h.chain
      · rw [hchains] at htrack
        exact .releaseRuntime rfl hpending hchains htrack h.spaced h.last h.releases
      · exact absurd hpending' (by rw [hpending]; decide)

theorem handleError_track {c : BrowserPolicyController} {error : Option String}
    (h : Track artifact c (.settled error)) :
    Track artifact (handleError error c) .caught := by
  rw [handleError.eq_def]
  split
  · exact ⟨h.index_lt, h.completed_eq, h.completed_le, fun _ => rfl, h.completed_input⟩
  · split
    · exact ⟨h.index_lt, h.completed_eq, h.completed_le, fun _ => rfl, h.completed_input⟩
    · exact ⟨h.index_lt, h.completed_eq, h.completed_le, fun _ => rfl, fun _ => rfl⟩

/-- The handler of `catch` touches the input and the failure only. -/
theorem handleError_frame (error : Option String) (c : BrowserPolicyController) :
    (handleError error c).nextInferenceS = c.nextInferenceS ∧ (handleError error c).pending = c.pending ∧
      (handleError error c).disposed = c.disposed ∧ (handleError error c).releaseStarted = c.releaseStarted ∧
      (handleError error c).taskCompletedValue = c.taskCompletedValue ∧
      (handleError error c).targetsCompletedValue = c.targetsCompletedValue := by
  rw [handleError.eq_def]
  split
  · exact ⟨rfl, rfl, rfl, rfl, rfl, rfl⟩
  · split <;> exact ⟨rfl, rfl, rfl, rfl, rfl, rfl⟩

/-- What a settled promise can do to the page. -/
theorem settle_cases (hypot : List ℚ → ℚ) (artifact : PreparedPolicyArtifact) (p : Playback) (k : ℕ) (s : Settlement) :
    settle hypot artifact k s p = p ∨
    (∃ error, p.chains[k]? = some (.settled error) ∧ settle hypot artifact k s p =
      { p with controller := handleError error p.controller, chains := p.chains.set k .caught }) ∨
    (p.chains[k]? = some .caught ∧ settle hypot artifact k s p = handleFinally k p) ∨
    ∃ stage stage' c, p.chains[k]? = some stage ∧ advance hypot artifact p.controller stage s = some (c, stage') ∧
      settle hypot artifact k s p = { p with controller := c, chains := p.chains.set k stage' } := by
  unfold settle
  cases hk : p.chains[k]? with
  | none => exact .inl rfl
  | some stage =>
    split
    · next error hstage =>
      obtain rfl := Option.some.inj hstage
      exact .inr (.inl ⟨error, rfl, rfl⟩)
    · next hstage =>
      obtain rfl := Option.some.inj hstage
      exact .inr (.inr (.inl ⟨rfl, rfl⟩))
    · next hstage _ _ =>
      obtain rfl := Option.some.inj hstage
      split
      · next c stage' hadv => exact .inr (.inr (.inr ⟨_, stage', c, rfl, hadv, rfl⟩))
      · exact .inl rfl
    · exact .inl rfl

/-- The chain that settles is the only one. -/
theorem Inv.chains_eq {p : Playback} (h : Inv artifact p) {k : ℕ} {stage : Stage} (hk : p.chains[k]? = some stage) :
    k = 0 ∧ p.chains = [stage] ∧ p.controller.pending = true := by
  obtain ⟨-, hchains⟩ | ⟨hpending, only, hchains⟩ := h.chain <;> rw [hchains] at hk
  · exact absurd hk (by simp)
  · cases k with
    | zero => exact ⟨rfl, by rw [hchains, Option.some.inj hk], hpending⟩
    | succ k => exact absurd hk (by simp)

theorem Inv.settle {p : Playback} (h : Inv artifact p) (k : ℕ) (s : Settlement) :
    Inv artifact (settle hypot artifact k s p) := by
  obtain heq | ⟨error, hk, heq⟩ | ⟨hk, heq⟩ | ⟨stage, stage', c, hk, hadv, heq⟩ :=
    settle_cases hypot artifact p k s <;> rw [heq]
  · exact h
  · obtain ⟨rfl, hchains, hpending⟩ := h.chains_eq hk
    obtain ⟨hnext, hpending', hdisposed, hstarted, -, -⟩ := handleError_frame error p.controller
    have htrack := h.track
    rw [hchains] at htrack
    refine ⟨.inr ⟨hpending'.trans hpending, .caught, by rw [hchains]; rfl⟩, ?_, h.spaced, ?_, ?_, ?_⟩
    · rw [hchains]
      exact handleError_track htrack
    · exact hnext ▸ h.last
    · exact hstarted ▸ h.releases
    · show (handleError error p.controller).releaseStarted = true ↔ _
      rw [hstarted, hdisposed, hpending']
      exact h.released
  · obtain ⟨rfl, hchains, hpending⟩ := h.chains_eq hk
    have hstarted : p.controller.releaseStarted = false := by
      cases hstarted : p.controller.releaseStarted with
      | false => rfl
      | true => exact absurd (h.released.mp hstarted).2 (by rw [hpending]; decide)
    have hchains' : p.chains.eraseIdx 0 = [] := by rw [hchains]; rfl
    have htrack := h.track
    rw [hchains] at htrack
    have htrack : Track artifact { p.controller with pending := false } .caught :=
      ⟨htrack.index_lt, htrack.completed_eq, htrack.completed_le, fun _ => rfl, htrack.completed_input⟩
    rw [handleFinally]
    dsimp only
    split
    · next hdisposed => exact .releaseRuntime hdisposed rfl hchains' htrack h.spaced h.last h.releases
    · next hdisposed =>
      refine ⟨.inl ⟨rfl, hchains'⟩, ?_, h.spaced, h.last, h.releases, ?_⟩
      · rw [hchains']
        exact htrack
      · show p.controller.releaseStarted = true ↔ p.controller.disposed = true ∧ _
        rw [hstarted]
        exact ⟨nofun, fun hd => absurd hd.1 hdisposed⟩
  · obtain ⟨rfl, hchains, hpending⟩ := h.chains_eq hk
    have hframe := frame_of_advance hadv
    have htrack := h.track
    rw [hchains] at htrack
    refine ⟨.inr ⟨hframe.pending.trans hpending, stage', by rw [hchains]; rfl⟩, ?_, h.spaced, ?_, ?_, ?_⟩
    · rw [hchains]
      exact htrack.advance hadv
    · exact hframe.nextInferenceS ▸ h.last
    · exact hframe.releaseStarted ▸ h.releases
    · show c.releaseStarted = true ↔ c.disposed = true ∧ c.pending = false
      rw [hframe.releaseStarted, hframe.disposed, hframe.pending]
      exact h.released

theorem Inv.exec {p : Playback} (h : Inv artifact p) (e : Event) : Inv artifact (exec hypot artifact p e) := by
  cases e with
  | schedule elapsedS => exact h.schedule elapsedS
  | dispose => exact h.dispose
  | settle k s => exact h.settle k s

/-! ### Failing safe -/

/-- What holds of the page at any one moment. -/
structure Orderly (artifact : PreparedPolicyArtifact) (p : Playback) : Prop where
  one_pending : p.chains.length ≤ 1
  spaced : Spaced artifact p.starts
  index_lt : p.controller.targetIndexValue < artifact.targets.length
  completed_le : p.controller.targetsCompletedValue ≤ artifact.targets.length
  released_once : p.releases ≤ 1
  released_idle : p.releases = 1 → p.chains = []
  disposed_released : p.controller.disposed = true → p.chains = [] → p.releases = 1

theorem Inv.orderly {p : Playback} (h : Inv artifact p) : Orderly artifact p := by
  have hreleases : p.releases = 1 ↔ p.controller.releaseStarted = true := by
    rw [h.releases]
    split <;> simp_all
  refine ⟨?_, h.spaced, h.track.index_lt, h.track.completed_le, ?_, fun hone => ?_, fun hdisposed hchains => ?_⟩
  · obtain ⟨-, hchains⟩ | ⟨-, stage, hchains⟩ := h.chain <;> rw [hchains] <;> simp
  · rw [h.releases]
    split <;> decide
  · have hpending := (h.released.mp (hreleases.mp hone)).2
    obtain ⟨-, hchains⟩ | ⟨hpending', -⟩ := h.chain
    · exact hchains
    · exact absurd hpending' (by rw [hpending]; decide)
  · obtain ⟨hpending, -⟩ | ⟨-, stage, hchains'⟩ := h.chain
    · exact hreleases.mpr (h.released.mpr ⟨hdisposed, hpending⟩)
    · exact absurd (hchains.symm.trans hchains') (by simp)

/-- What a step never undoes. -/
structure Onward (p p' : Playback) : Prop where
  progress : p.controller.targetsCompletedValue ≤ p'.controller.targetsCompletedValue
  stopped : p.Stopped → p'.Stopped

theorem Onward.trans {p q r : Playback} (h : Onward p q) (h' : Onward q r) : Onward p r :=
  ⟨h.progress.trans h'.progress, fun hp => h'.stopped (h.stopped hp)⟩

theorem releaseRuntime_keeps (p : Playback) :
    (releaseRuntime p).controller = { p.controller with releaseStarted := true } ∧
      (releaseRuntime p).chains = p.chains := by
  rw [releaseRuntime]
  split
  · next hstarted => exact ⟨by rw [← hstarted], rfl⟩
  · exact ⟨rfl, rfl⟩

theorem onward_exec (p : Playback) (e : Event) : Onward p (exec hypot artifact p e) := by
  cases e with
  | schedule elapsedS =>
    show Onward p (schedule artifact elapsedS p)
    rw [schedule]
    split <;> exact ⟨le_rfl, id⟩
  | dispose =>
    show Onward p (dispose p)
    rw [dispose]
    split
    · exact ⟨le_rfl, id⟩
    · dsimp only
      split
      · exact ⟨le_rfl, fun _ => .inl rfl⟩
      · refine ⟨?_, fun _ => .inl ?_⟩ <;> rw [(releaseRuntime_keeps _).1]
  | settle k s =>
    show Onward p (settle hypot artifact k s p)
    obtain heq | ⟨error, hk, heq⟩ | ⟨hk, heq⟩ | ⟨stage, stage', c, hk, hadv, heq⟩ :=
      settle_cases hypot artifact p k s <;> rw [heq]
    · exact ⟨le_rfl, id⟩
    · obtain ⟨-, -, hdisposed, -, hcompleted, hprogress⟩ := handleError_frame error p.controller
      refine ⟨hprogress.ge, ?_⟩
      rintro (h | h | h)
      · exact .inl (hdisposed.trans h)
      · refine .inr (.inl ?_)
        show (handleError error p.controller).failureValue ≠ none
        rw [handleError.eq_def]
        split
        · exact h
        · split
          · exact h
          · exact nofun
      · exact .inr (.inr (hcompleted.trans h))
    · rw [handleFinally]
      dsimp only
      split
      · refine ⟨?_, fun h => ?_⟩
        · rw [(releaseRuntime_keeps _).1]
        · rw [Playback.Stopped, (releaseRuntime_keeps _).1]
          exact h
      · exact ⟨le_rfl, id⟩
    · have hframe := frame_of_advance hadv
      refine ⟨hframe.progress, ?_⟩
      rintro (h | h | h)
      · exact .inl (hframe.disposed.trans h)
      · exact .inr (.inl (hframe.failureValue ▸ h))
      · exact .inr (.inr (hframe.completed h))

/-- The event delivers a non-zero action to a controller that is disposed or holds a failure. -/
def Late (artifact : PreparedPolicyArtifact) (p : Playback) : Event → Prop
  | .settle k (.data values) =>
    p.chains[k]? = some .reading ∧ (p.controller.disposed = true ∨ p.controller.failureValue ≠ none) ∧
      ∃ next, inferData artifact values = .ok next ∧ next ≠ zeroInput
  | _ => False

/-- A step that is not late keeps a stopped controller at the zero input. -/
theorem Quiet.exec {p : Playback} (h : Inv artifact p) (hquiet : Quiet p) {e : Event} (hlate : ¬ Late artifact p e) :
    Quiet (exec hypot artifact p e) := by
  cases e with
  | schedule elapsedS =>
    show Quiet (schedule artifact elapsedS p)
    rw [schedule]
    split <;> exact hquiet
  | dispose =>
    show Quiet (dispose p)
    rw [dispose]
    split
    · exact hquiet
    · dsimp only
      split
      · exact fun _ => rfl
      · intro _
        rw [(releaseRuntime_keeps _).1]
  | settle k s =>
    show Quiet (settle hypot artifact k s p)
    obtain heq | ⟨error, hk, heq⟩ | ⟨hk, heq⟩ | ⟨stage, stage', c, hk, hadv, heq⟩ :=
      settle_cases hypot artifact p k s <;> rw [heq]
    · exact hquiet
    · rw [handleError.eq_def]
      split
      · exact hquiet
      · split
        · exact hquiet
        · exact fun _ => rfl
    · rw [handleFinally]
      dsimp only
      split
      · intro hstopped
        rw [Playback.Stopped, (releaseRuntime_keeps _).1] at hstopped
        rw [(releaseRuntime_keeps _).1]
        exact hquiet hstopped
      · exact hquiet
    · obtain ⟨rfl, hchains, -⟩ := h.chains_eq hk
      have htrack := h.track
      rw [hchains] at htrack
      have hframe := frame_of_advance hadv
      obtain ⟨hdone, hm | ⟨values, next, rfl, rfl, hnext, rfl, rfl⟩⟩ := advance_cases hadv
      · cases hm with
        | keep => exact hquiet
        | complete => exact fun _ => rfl
        | nextTarget => exact hquiet
      · have hopen := htrack.is_open hdone
        rintro (hstopped | hstopped | hstopped)
        · exact by_contra fun hne => hlate ⟨hk, .inl hstopped, next, hnext, hne⟩
        · exact by_contra fun hne => hlate ⟨hk, .inr hstopped, next, hnext, hne⟩
        · exact absurd hstopped (by show ¬ p.controller.taskCompletedValue = true; rw [hopen]; decide)

theorem not_quiet_of_late {p : Playback} {e : Event} (hlate : Late artifact p e) :
    ¬ Quiet (exec hypot artifact p e) := by
  match e, hlate with
  | .settle k (.data values), ⟨hk, hstopped, next, hnext, hne⟩ =>
    have hstep : exec hypot artifact p (.settle k (.data values)) =
        { p with controller := { p.controller with latestInput := next,
                                                   inferenceCountValue := p.controller.inferenceCountValue + 1 }
                 chains := p.chains.set k (.settled none) } := by
      show settle hypot artifact k (.data values) p = _
      simp only [settle, hk, advance, hnext]
    rw [hstep]
    refine fun hquiet => hne (hquiet ?_)
    obtain hd | hf := hstopped
    · exact .inl hd
    · exact .inr (.inl hf)

/-- Playback fails safe along the states it visits. -/
structure FailsSafe (artifact : PreparedPolicyArtifact) (visited : List Playback) : Prop where
  orderly : ∀ p ∈ visited, Orderly artifact p
  progress : visited.Pairwise fun p p' => p.controller.targetsCompletedValue ≤ p'.controller.targetsCompletedValue
  quiet : ∀ p ∈ visited, Quiet p
  /-- Once it is stopped, the input stays zero whatever resolves later. -/
  forever : visited.Pairwise fun p p' => p.Stopped → p'.controller.latestInput = zeroInput

/-- A policy that hovers: one position to hold, one observation and the throttle. -/
def hoverArtifact : PreparedPolicyArtifact where
  targets := [⟨.position, 1 / 4⟩]
  rateHz := 50
  inputLayout := ["estimator.altitudeM"]
  outputName := "action"
  outputLayout := ["throttle"]
  targets_ne := by decide
  one_le_rateHz := by decide
  rateHz_le := by decide
  outputLayout_nodup := by decide
  outputLayout_allowed := by decide

/-- The distance along one axis. -/
def axisDistance (xs : List ℚ) : ℚ := (xs.map fun x => |x|).sum

def hoverSnapshot : PolicyObservationSnapshot where
  layout := ["estimator.altitudeM"]
  observations := [some 1]

def hoverTensor : RuntimeTensor where
  dims := [1, 1]
  type := "float32"

/-- The controller that `create` returns for the hovering policy, at half throttle. -/
def hoverController : BrowserPolicyController :=
  { BrowserPolicyController.fresh with
    latestInput := { zeroInput with throttle := 1 / 2 }, inferenceCountValue := 1, nextInferenceS := 1 / (50 : ℕ) }

theorem hoverController_created : Created axisDistance hoverArtifact hoverController := by
  have hstart : Creating axisDistance hoverArtifact .fresh .running := .start hoverSnapshot
  have hread : Creating axisDistance hoverArtifact .fresh .reading :=
    .settle (s := .results [("action", hoverTensor)]) hstart rfl
  have hdata : advance axisDistance hoverArtifact .fresh .reading (.data [some (1 / 2)]) =
      some ({ BrowserPolicyController.fresh with
        latestInput := { zeroInput with throttle := 1 / 2 }, inferenceCountValue := 1 }, .settled none) := by
    decide +kernel
  exact ⟨_, hread.settle hdata, rfl⟩

/-- One inference up to its data, and what comes after. -/
def hoverRun (rest : List Event) : List Event :=
  .schedule 1 :: .settle 0 (.snapshot hoverSnapshot) :: .settle 0 (.results [("action", hoverTensor)]) :: rest

end

end Forge.Studio
