import Forge.Data.Thread
import Forge.Studio.PolicyPlayback
import Mathlib.Algebra.BigOperators.Group.List.Basic
import Mathlib.Data.List.Nodup
import Mathlib.Tactic.Ring

/-!
# The simulation in a worker

The studio runs its simulation on the page or in a worker (`wasm.ts`, `session.worker.ts`), behind one
interface: `LocalCoreSession` calls the core, `WorkerCoreSession` posts messages to a thread that does. Steps
are posted one at a time, and those that come too early are put together. A policy observation is asked for
under a number of its own and answered under that number; its promise may also be rejected after two seconds,
by a failure of the worker, or by `dispose`.

Here the session begins after `create`. The page, the worker and the messages between them are one `State`, and
an `Event` is what any of them does next. The **key result** is `worker_session_sound`, for every sequence of
events: an observation that arrives is the one that a local session gives after the same messages, each promise
is settled once, and no time is lost on the way to the worker, other than that of a step that `postMessage` refused.

The core is a parameter, and times are exact rationals. The measurements of `drainPerf` are left out.
-/

namespace Forge.Studio

/-! ### The core -/

structure FocusVector where
  x : ℚ
  y : ℚ
  z : ℚ
deriving DecidableEq

/-- The core's `Session`: what its methods do to a session, and what they return or throw. -/
structure Core (σ : Type) where
  step : σ → ℚ → DriveInput → σ × Except String ℕ
  focus : σ → FocusVector
  policyLayout : σ → Except String (List String)
  policyLayoutV2 : σ → Except String (List String)
  policyObservations : σ → FocusVector → Except String (List (Option ℚ))
  policyObservationsV2 : σ → FocusVector → Except String (List (Option ℚ))
  setJog : σ → String → ℚ → ℚ → σ
  clearJog : σ → σ

/-- The versioned observation of a session, as the page and the worker both take it. -/
def Core.policySnapshot {σ : Type} (core : Core σ) (session : σ) (target : FocusVector) (tensorVersion : String) :
    Except String PolicyObservationSnapshot := do
  let v2 := tensorVersion = "2.0.0"
  if ¬ v2 ∧ tensorVersion ≠ "1.0.0" then throw s!"unsupported policy tensor {tensorVersion}"
  let layout ← if v2 then core.policyLayoutV2 session else core.policyLayout session
  let observations ← if v2 then core.policyObservationsV2 session target else core.policyObservations session target
  pure { layout, observations }

namespace SessionWorker

variable {σ : Type} (core : Core σ)

/-! ### The session on the page -/

/-- `SessionWorkerRequest`, after `create`. -/
inductive Request where
  | step (dt : ℚ) (input : DriveInput)
  | policySnapshot (requestId : ℕ) (target : FocusVector) (tensorVersion : String)
  | setJog (node : String) (rx ry : ℚ)
  | clearJog
  | dispose
deriving DecidableEq

/-- `LocalCoreSession`, with its core session until `free`. -/
structure LocalCoreSession (σ : Type) where
  session : Option σ

/-- The methods of `LocalCoreSession` that change it, by the request that stands for each of them in the worker. -/
def LocalCoreSession.call (l : LocalCoreSession σ) : Request → LocalCoreSession σ
  | .step dt input => { session := l.session.map fun s => (core.step s dt input).1 }
  | .policySnapshot _ _ _ => l
  | .setJog node rx ry => { session := l.session.map fun s => core.setJog s node rx ry }
  | .clearJog => { session := l.session.map core.clearJog }
  | .dispose => { session := none }

/-- `LocalCoreSession.policySnapshot` -/
def LocalCoreSession.policySnapshot (l : LocalCoreSession σ) (target : FocusVector) (tensorVersion : String) :
    Except String PolicyObservationSnapshot :=
  match l.session with
  | none => throw "core session is disposed"
  | some session => core.policySnapshot session target tensorVersion

/-- A local session after these calls. -/
def LocalCoreSession.after (session : σ) (calls : List Request) : LocalCoreSession σ :=
  calls.foldl (LocalCoreSession.call core) { session := some session }

/-! ### The worker -/

/-- `SessionWorkerResponse`, after `created`. -/
inductive Response where
  | stepped (steps : ℕ) (focus : FocusVector)
  | policySnapshot (requestId : ℕ) (snapshot : PolicyObservationSnapshot)
  | policySnapshotError (requestId : ℕ) (message : String)
  | error (message : String)

/-- `handleMessage` -/
def handleMessage (session : Option σ) : Request → Option σ × List Response
  | .step dt input => match session with
    | none => (none, [])
    | some s => match core.step s dt input with
      | (s, .ok steps) => (some s, [.stepped steps (core.focus s)])
      | (s, .error message) => (some s, [.error message])
  | .policySnapshot requestId target tensorVersion => match session with
    | none => (none, [.policySnapshotError requestId "core session is unavailable"])
    | some s => match core.policySnapshot s target tensorVersion with
      | .ok snapshot => (some s, [.policySnapshot requestId snapshot])
      | .error message => (some s, [.policySnapshotError requestId message])
  | .setJog node rx ry => (session.map fun s => core.setJog s node rx ry, [])
  | .clearJog => (session.map core.clearJog, [])
  | .dispose => (none, [])

/-! ### The session in the worker -/

/-- `WorkerCoreSession`. The promises of `pendingPolicy` are known by their numbers. -/
structure WorkerCoreSession where
  disposed : Bool
  stepPending : Bool
  queuedDt : ℚ
  queuedInput : Option DriveInput
  focusValue : FocusVector
  nextPolicyRequestId : ℕ
  pendingPolicy : List ℕ

/-- What has happened: the code keeps none of this. -/
structure History where
  /-- The messages that were posted. -/
  posted : List Request
  /-- The times of the calls of `step`. -/
  stepped : List ℚ
  /-- The times of the steps that `postMessage` refused. -/
  lost : List ℚ
  /-- The answers that were read. -/
  answers : List Response
  /-- The observations that `postMessage` refused to ask for. -/
  thrown : List (ℕ × String)
  /-- The promises that were settled. -/
  settled : List (ℕ × Except String PolicyObservationSnapshot)

structure State (σ : Type) where
  session : WorkerCoreSession
  thread : Thread (Option σ) Request Response
  /-- Whether `worker.terminate` was called. -/
  terminated : Bool
  history : History

def State.start (session : σ) : State σ where
  session := { disposed := false, stepPending := false, queuedDt := 0, queuedInput := none
               focusValue := core.focus session, nextPolicyRequestId := 1, pendingPolicy := [] }
  thread := .start (some session)
  terminated := false
  history := { posted := [], stepped := [], lost := [], answers := [], thrown := [], settled := [] }

/-- `worker.postMessage` -/
def State.postMessage (s : State σ) (r : Request) : State σ :=
  { s with thread := s.thread.post r, history := { s.history with posted := s.history.posted ++ [r] } }

/-- `dispatchStep`. If `postMessage` throws, the step stays pending. -/
def State.dispatchStep (s : State σ) (dt : ℚ) (input : DriveInput) (throws : Bool) : State σ :=
  if s.session.stepPending then
    { s with session := { s.session with queuedDt := s.session.queuedDt + dt, queuedInput := some input } }
  else
    let s := { s with session := { s.session with stepPending := true } }
    if throws then { s with history := { s.history with lost := s.history.lost ++ [dt] } }
    else s.postMessage (.step dt input)

/-- `step` -/
def State.step (s : State σ) (dt : ℚ) (input : DriveInput) (throws : Bool) : State σ :=
  if s.session.disposed then s
  else { s with history := { s.history with stepped := s.history.stepped ++ [dt] } }.dispatchStep dt input throws

/-- `setJog` and `clearJog` -/
def State.jog (s : State σ) (r : Request) (throws : Bool) : State σ :=
  if s.session.disposed || throws then s else s.postMessage r

/-- The promise `requestId` is settled, if it is still pending. -/
def State.settle (s : State σ) (requestId : ℕ) (outcome : Except String PolicyObservationSnapshot) : State σ :=
  if requestId ∈ s.session.pendingPolicy then
    { s with session := { s.session with pendingPolicy := s.session.pendingPolicy.erase requestId }
             history := { s.history with settled := s.history.settled ++ [(requestId, outcome)] } }
  else s

/-- `policySnapshot`; `thrown` is what `postMessage` throws, if it does. A disposed session rejects at once. -/
def State.policySnapshot (s : State σ) (target : FocusVector) (tensorVersion : String) (thrown : Option String) :
    State σ :=
  if s.session.disposed then s
  else
    let requestId := s.session.nextPolicyRequestId
    let s := { s with session :=
      { s.session with nextPolicyRequestId := requestId + 1
                       pendingPolicy := s.session.pendingPolicy ++ [requestId] } }
    match thrown with
    | none => s.postMessage (.policySnapshot requestId target tensorVersion)
    | some message =>
      { s with history := { s.history with thrown := s.history.thrown ++ [(requestId, message)] } }.settle requestId
        (.error message)

/-- `rejectPendingPolicy` -/
def State.rejectPendingPolicy (s : State σ) (message : String) : State σ :=
  { s with session := { s.session with pendingPolicy := [] }
           history := { s.history with settled :=
             s.history.settled ++ s.session.pendingPolicy.map fun requestId => (requestId, .error message) } }

/-- `dispose`. If `postMessage` throws, the worker is not terminated. -/
def State.dispose (s : State σ) (throws : Bool) : State σ :=
  if s.session.disposed then s
  else
    let s := { s with session := { s.session with disposed := true } }.rejectPendingPolicy
      "core session disposed before policy observation completed"
    if throws then s else { s.postMessage .dispose with terminated := true }

/-- `handleResponse`. It does not ask whether the session is disposed. -/
def State.handleResponse (s : State σ) (throws : Bool) : Response → State σ
  | .stepped _ focus =>
    let session := { s.session with stepPending := false, focusValue := focus }
    match session.queuedInput with
    | some input =>
      if 0 < session.queuedDt then
        { s with session := { session with queuedDt := 0, queuedInput := none } }.dispatchStep session.queuedDt input throws
      else { s with session }
    | none => { s with session }
  | .error _ => { s with session := { s.session with stepPending := false } }
  | .policySnapshot requestId snapshot => s.settle requestId (.ok snapshot)
  | .policySnapshotError requestId message => s.settle requestId (.error message)

/-- What can happen next; a `postMessage` on the way may throw. -/
inductive Event where
  | step (dt : ℚ) (input : DriveInput) (throws : Bool)
  | policySnapshot (target : FocusVector) (tensorVersion : String) (thrown : Option String)
  | setJog (node : String) (rx ry : ℚ) (throws : Bool)
  | clearJog (throws : Bool)
  | dispose (throws : Bool)
  /-- The worker handles its next message. -/
  | serve
  /-- The page gets the next answer. -/
  | respond (throws : Bool)
  /-- Two seconds are over for an observation. -/
  | timeout (requestId : ℕ)
  /-- `worker.onerror` -/
  | fail
  /-- `worker.terminate` of `dispose` takes effect. -/
  | halt

def State.exec (s : State σ) : Event → State σ
  | .step dt input throws => s.step dt input throws
  | .policySnapshot target tensorVersion thrown => s.policySnapshot target tensorVersion thrown
  | .setJog node rx ry throws => s.jog (.setJog node rx ry) throws
  | .clearJog throws => s.jog .clearJog throws
  | .dispose throws => s.dispose throws
  | .serve => { s with thread := s.thread.serve (handleMessage core) }
  | .respond throws => match s.thread.read with
    | none => s
    | some (message, thread) =>
      { s with thread, history := { s.history with answers := s.history.answers ++ [message] } }.handleResponse throws
        message
  | .timeout requestId => s.settle requestId (.error "core policy observation timed out after 2 seconds")
  | .fail =>
    { s with session := { s.session with stepPending := false } }.rejectPendingPolicy
      "core session worker failed during policy observation"
  | .halt => if s.terminated then { s with thread := { s.thread with inbox := [], outbox := [] } } else s

/-- The state after these events. -/
def State.after (s : State σ) (events : List Event) : State σ := events.foldl (State.exec core) s

variable {core}

/-! ### The local session -/

/-- The worker's session after its messages is the local one after the same calls. -/
theorem handleMessage_fst (l : LocalCoreSession σ) (r : Request) :
    (handleMessage core l.session r).1 = (l.call core r).session := by
  cases r with
  | step dt input =>
    unfold handleMessage LocalCoreSession.call
    cases l.session with
    | none => rfl
    | some s => rcases h : core.step s dt input with ⟨s', steps | message⟩ <;> simp [h]
  | policySnapshot requestId target tensorVersion =>
    unfold handleMessage LocalCoreSession.call
    cases l.session with
    | none => rfl
    | some s => cases h : core.policySnapshot s target tensorVersion <;> simp [h]
  | setJog => rfl
  | clearJog => rfl
  | dispose => rfl

theorem handleAll_fst (l : LocalCoreSession σ) (calls : List Request) :
    (Thread.handleAll (handleMessage core) l.session calls).1 = (calls.foldl (LocalCoreSession.call core) l).session := by
  induction calls generalizing l with
  | nil => rfl
  | cons r calls ih =>
    rw [Thread.handleAll, List.foldl_cons, ← ih, handleMessage_fst]

/-- The session is there until it is freed. -/
theorem session_of_not_mem {l : LocalCoreSession σ} (hsome : l.session.isSome) {calls : List Request}
    (h : .dispose ∉ calls) : (calls.foldl (LocalCoreSession.call core) l).session.isSome := by
  induction calls generalizing l with
  | nil => exact hsome
  | cons r calls ih =>
    obtain ⟨hr, hcalls⟩ := not_or.mp (mt List.mem_cons.mpr h)
    refine ih ?_ hcalls
    cases r with
    | dispose => exact absurd rfl hr
    | policySnapshot => exact hsome
    | step => simpa [LocalCoreSession.call] using hsome
    | setJog => simpa [LocalCoreSession.call] using hsome
    | clearJog => simpa [LocalCoreSession.call] using hsome

/-- What the worker answers to the request `requestId`. -/
def answerOf (requestId : ℕ) : Except String PolicyObservationSnapshot → Response
  | .ok snapshot => .policySnapshot requestId snapshot
  | .error message => .policySnapshotError requestId message

/-- An observation that the worker sends is that of the local session, under the number it was asked for. -/
theorem snapshot_of_handleMessage {l : LocalCoreSession σ} (hsome : l.session.isSome) {r : Request} {requestId : ℕ}
    {outcome : Except String PolicyObservationSnapshot}
    (h : answerOf requestId outcome ∈ (handleMessage core l.session r).2) :
    ∃ target tensorVersion, r = .policySnapshot requestId target tensorVersion ∧
      l.policySnapshot core target tensorVersion = outcome := by
  obtain ⟨s, hl⟩ := Option.isSome_iff_exists.mp hsome
  cases r with
  | step dt input =>
    unfold handleMessage at h
    rcases hs : core.step s dt input with ⟨s', steps | message⟩ <;> cases outcome <;> simp [hl, hs, answerOf] at h
  | policySnapshot id target tensorVersion =>
    unfold handleMessage at h
    cases hs : core.policySnapshot s target tensorVersion with
    | ok snapshot =>
      cases outcome with
      | ok snapshot' =>
        obtain ⟨rfl, rfl⟩ : requestId = id ∧ snapshot' = snapshot := by simpa [hl, hs, answerOf] using h
        exact ⟨target, tensorVersion, rfl, by simp [LocalCoreSession.policySnapshot, hl, hs]⟩
      | error message => simp [hl, hs, answerOf] at h
    | error message =>
      cases outcome with
      | ok snapshot => simp [hl, hs, answerOf] at h
      | error message' =>
        obtain ⟨rfl, rfl⟩ : requestId = id ∧ message' = message := by simpa [hl, hs, answerOf] using h
        exact ⟨target, tensorVersion, rfl, by simp [LocalCoreSession.policySnapshot, hl, hs]⟩
  | setJog => simp [handleMessage] at h
  | clearJog => simp [handleMessage] at h
  | dispose => simp [handleMessage] at h

/-! ### Promises -/

/-- Of the promises `1, …, next - 1` each is settled once or pending. -/
structure Promises (next : ℕ) (pending settled : List ℕ) : Prop where
  nodup : (settled ++ pending).Nodup
  all (i : ℕ) : i ∈ settled ++ pending ↔ 1 ≤ i ∧ i < next

namespace Promises

variable {next : ℕ} {pending settled : List ℕ}

theorem ask (h : Promises next pending settled) (hpos : 1 ≤ next) :
    Promises (next + 1) (pending ++ [next]) settled := by
  have hnew : next ∉ settled ++ pending := fun hmem => absurd ((h.all next).mp hmem).2 (lt_irrefl _)
  refine ⟨?_, fun i => ?_⟩
  · rw [← List.append_assoc]
    exact h.nodup.append (List.nodup_singleton _) (by simpa using hnew)
  · rw [← List.append_assoc, List.mem_append, h.all i, List.mem_singleton]
    omega

theorem settle (h : Promises next pending settled) {i : ℕ} (hi : i ∈ pending) :
    Promises next (pending.erase i) (settled ++ [i]) := by
  have hperm : (settled ++ [i] ++ pending.erase i).Perm (settled ++ pending) := by
    rw [List.append_assoc]
    exact ((List.perm_cons_erase hi).symm).append_left settled
  exact ⟨hperm.nodup_iff.mpr h.nodup, fun j => hperm.mem_iff.trans (h.all j)⟩

theorem settleAll (h : Promises next pending settled) : Promises next [] (settled ++ pending) := by
  refine ⟨?_, fun i => ?_⟩
  · rw [List.append_nil]
    exact h.nodup
  · rw [List.append_nil]
    exact h.all i

end Promises

/-! ### The invariant -/

/-- The number under which a message asks for an observation. -/
def Request.requestId : Request → Option ℕ
  | .policySnapshot requestId _ _ => some requestId
  | _ => none

/-- The time of a message. -/
def Request.dt : Request → Option ℚ
  | .step dt _ => some dt
  | _ => none

/-- What a promise may be rejected with when its answer does not come. -/
def refusals : List String :=
  ["core policy observation timed out after 2 seconds", "core session worker failed during policy observation",
    "core session disposed before policy observation completed"]

/-- A promise is settled by a refusal, or as a local session answers after the messages before its own. -/
def Own (core : Core σ) (session : σ) (history : History) (e : ℕ × Except String PolicyObservationSnapshot) : Prop :=
  (∃ message, e.2 = .error message ∧ (message ∈ refusals ∨ (e.1, message) ∈ history.thrown)) ∨
    ∃ before target tensorVersion later,
      history.posted = before ++ .policySnapshot e.1 target tensorVersion :: later ∧
      (LocalCoreSession.after core session before).policySnapshot core target tensorVersion = e.2

theorem Own.more {session : σ} {h h' : History} {e : ℕ × Except String PolicyObservationSnapshot}
    (hown : Own core session h e) (hposted : h.posted <+: h'.posted) (hthrown : h.thrown ⊆ h'.thrown) :
    Own core session h' e := by
  obtain ⟨message, he, hmem⟩ | ⟨before, target, tensorVersion, later, heq, hlocal⟩ := hown
  · exact .inl ⟨message, he, hmem.imp_right fun hmem => hthrown hmem⟩
  · obtain ⟨rest, hrest⟩ := hposted
    refine .inr ⟨before, target, tensorVersion, later ++ rest, ?_, hlocal⟩
    rw [← hrest, heq, List.append_assoc, List.cons_append]

/-- What holds of the session and of the worker that started with `session`. -/
structure Inv (core : Core σ) (session : σ) (s : State σ) : Prop where
  follows : s.session.disposed = false → ∃ handled, Thread.Follows (handleMessage core) (some session)
    s.history.posted handled s.history.answers s.thread
  live : s.session.disposed = false → .dispose ∉ s.history.posted
  closed : s.session.disposed = true → s.session.pendingPolicy = []
  stopped : s.terminated = true → s.session.disposed = true
  next : 1 ≤ s.session.nextPolicyRequestId
  promises : Promises s.session.nextPolicyRequestId s.session.pendingPolicy (s.history.settled.map Prod.fst)
  own : ∀ e ∈ s.history.settled, Own core session s.history e
  numbers : (s.history.posted.filterMap Request.requestId).Nodup
  numbers_lt : ∀ i ∈ s.history.posted.filterMap Request.requestId, i < s.session.nextPolicyRequestId

namespace Inv

variable {session : σ} {s : State σ}

theorem start (session : σ) : Inv core session (.start core session) where
  follows _ := ⟨[], .start _⟩
  live _ := List.not_mem_nil
  closed h := by cases h
  stopped h := by cases h
  next := le_refl 1
  promises := ⟨List.nodup_nil, fun i => by simp [State.start]; omega⟩
  own e he := by cases he
  numbers := List.nodup_nil
  numbers_lt i hi := by cases hi

/-- A message that asks for no observation. -/
theorem post (h : Inv core session s) {r : Request} (hr : r.requestId = none)
    (hlive : s.session.disposed = false → r ≠ .dispose) : Inv core session (s.postMessage r) where
  follows hd := by
    obtain ⟨handled, hf⟩ := h.follows hd
    exact ⟨handled, hf.post r⟩
  live hd hmem := by
    rcases List.mem_append.mp hmem with hmem | hmem
    · exact h.live hd hmem
    · exact hlive hd (List.mem_singleton.mp hmem).symm
  closed := h.closed
  stopped := h.stopped
  next := h.next
  promises := h.promises
  own e he := (h.own e he).more (List.prefix_append _ _) (List.Subset.refl _)
  numbers := by
    simpa [State.postMessage, List.filterMap_append, hr] using h.numbers
  numbers_lt := by
    simpa [State.postMessage, List.filterMap_append, hr] using h.numbers_lt

/-- The fields of the session that have to do with steps. -/
theorem withSteps (h : Inv core session s) (stepPending : Bool) (queuedDt : ℚ) (queuedInput : Option DriveInput)
    (focusValue : FocusVector) (stepped lost : List ℚ) :
    Inv core session { s with
      session := { s.session with stepPending, queuedDt, queuedInput, focusValue }
      history := { s.history with stepped, lost } } :=
  { h with own := fun e he => (h.own e he).more List.prefix_rfl (List.Subset.refl _) }

theorem dispatchStep (h : Inv core session s) (dt : ℚ) (input : DriveInput) (throws : Bool) :
    Inv core session (s.dispatchStep dt input throws) := by
  unfold State.dispatchStep
  split
  · exact h.withSteps _ _ _ _ _ _
  · have hpending := h.withSteps true s.session.queuedDt s.session.queuedInput s.session.focusValue s.history.stepped
    cases throws with
    | true => exact hpending _
    | false => exact (hpending s.history.lost).post rfl fun _ => by simp

theorem jog (h : Inv core session s) {r : Request} (hr : r.requestId = none) (hlive : r ≠ .dispose) (throws : Bool) :
    Inv core session (s.jog r throws) := by
  unfold State.jog
  split
  · exact h
  · exact h.post hr fun _ => hlive

theorem settle (h : Inv core session s) {requestId : ℕ} {outcome : Except String PolicyObservationSnapshot}
    (hown : requestId ∈ s.session.pendingPolicy → Own core session s.history (requestId, outcome)) :
    Inv core session (s.settle requestId outcome) := by
  unfold State.settle
  split
  · rename_i hmem
    refine { h with closed := fun hd => ?_, promises := ?_, own := fun e he => ?_ }
    · show s.session.pendingPolicy.erase requestId = []
      rw [h.closed hd, List.erase_nil]
    · simpa using h.promises.settle hmem
    · refine Own.more ?_ List.prefix_rfl (List.Subset.refl s.history.thrown)
      rcases List.mem_append.mp he with he | he
      · exact h.own e he
      · rw [List.mem_singleton.mp he]
        exact hown hmem
  · exact h

theorem rejectPendingPolicy (h : Inv core session s) {message : String} (hmem : message ∈ refusals) :
    Inv core session (s.rejectPendingPolicy message) := by
  refine { h with closed := fun _ => rfl, promises := ?_, own := fun e he => ?_ }
  · simpa [State.rejectPendingPolicy, Function.comp_def] using h.promises.settleAll
  · refine Own.more ?_ List.prefix_rfl (List.Subset.refl s.history.thrown)
    rcases List.mem_append.mp he with he | he
    · exact h.own e he
    · obtain ⟨i, -, rfl⟩ := List.mem_map.mp he
      exact .inl ⟨message, rfl, .inl hmem⟩

/-- A new number, of which nothing is known yet. -/
theorem ask (h : Inv core session s) (hd : s.session.disposed = false) :
    Inv core session { s with session :=
      { s.session with nextPolicyRequestId := s.session.nextPolicyRequestId + 1
                       pendingPolicy := s.session.pendingPolicy ++ [s.session.nextPolicyRequestId] } } :=
  { h with
    closed := fun hclosed => absurd (hd.symm.trans hclosed) Bool.false_ne_true
    next := Nat.le_succ_of_le h.next
    promises := h.promises.ask h.next
    numbers_lt := fun i hi => Nat.lt_succ_of_lt (h.numbers_lt i hi) }

theorem policySnapshot (h : Inv core session s) (target : FocusVector) (tensorVersion : String)
    (thrown : Option String) : Inv core session (s.policySnapshot target tensorVersion thrown) := by
  unfold State.policySnapshot
  by_cases hdisposed : s.session.disposed = true
  · rw [if_pos hdisposed]
    exact h
  rw [if_neg hdisposed]
  have hd : s.session.disposed = false := Bool.eq_false_iff.mpr hdisposed
  have hask := h.ask hd
  cases thrown with
  | some message =>
    refine settle ?_ fun _ => .inl ⟨message, rfl, .inr (List.mem_append_right _ (List.mem_singleton_self _))⟩
    exact { hask with
      own := fun e he => (hask.own e he).more List.prefix_rfl (List.subset_append_left _ _) }
  | none =>
    have hids : (s.history.posted ++
        [Request.policySnapshot s.session.nextPolicyRequestId target tensorVersion]).filterMap Request.requestId =
        s.history.posted.filterMap Request.requestId ++ [s.session.nextPolicyRequestId] := by
      rw [List.filterMap_append]
      rfl
    refine { hask with follows := fun hd => ?_, live := fun hd hmem => ?_, own := fun e he => ?_, numbers := ?_,
                       numbers_lt := fun i hi => ?_ }
    · obtain ⟨handled, hf⟩ := h.follows hd
      exact ⟨handled, hf.post _⟩
    · rcases List.mem_append.mp hmem with hmem | hmem
      · exact h.live hd hmem
      · simp at hmem
    · exact (h.own e he).more (List.prefix_append _ _) (List.Subset.refl _)
    · show ((s.history.posted ++ [_]).filterMap Request.requestId).Nodup
      rw [hids]
      refine h.numbers.append (List.nodup_singleton _) ?_
      rw [List.disjoint_singleton]
      exact fun hmem => absurd (h.numbers_lt _ hmem) (lt_irrefl _)
    · have hi' : i ∈ (s.history.posted ++ [_]).filterMap Request.requestId := hi
      rw [hids, List.mem_append, List.mem_singleton] at hi'
      show i < s.session.nextPolicyRequestId + 1
      rcases hi' with hi' | rfl
      · exact Nat.lt_succ_of_lt (h.numbers_lt i hi')
      · exact Nat.lt_succ_self _

theorem dispose (h : Inv core session s) (throws : Bool) : Inv core session (s.dispose throws) := by
  unfold State.dispose
  split
  · exact h
  · have hreject := h.rejectPendingPolicy
      (show "core session disposed before policy observation completed" ∈ refusals by simp [refusals])
    have hdisposed : Inv core session ({ s with session := { s.session with disposed := true } }.rejectPendingPolicy
        "core session disposed before policy observation completed") :=
      { hreject with
        follows := fun hd => by cases hd
        live := fun hd => by cases hd
        closed := fun _ => rfl
        stopped := fun _ => rfl }
    cases throws with
    | true => exact hdisposed
    | false =>
      have hposted := hdisposed.post (r := .dispose) rfl fun hd => by cases hd
      exact { hposted with stopped := fun _ => rfl }

/-- An answer that was read is one to a message of its own number, as the local session gives it. -/
theorem answer_own (h : Inv core session s) (hd : s.session.disposed = false) {message : Response}
    {thread : Thread (Option σ) Request Response} (hread : s.thread.read = some (message, thread)) {requestId : ℕ}
    {outcome : Except String PolicyObservationSnapshot} (hanswer : message = answerOf requestId outcome) :
    Own core session s.history (requestId, outcome) := by
  obtain ⟨handled, hf⟩ := h.follows hd
  have hmem : message ∈ (Thread.handleAll (handleMessage core) (some session) s.history.posted).2 :=
    (hf.read hread).isPrefix_answers.subset (List.mem_append_right _ (List.mem_singleton_self _))
  obtain ⟨before, r, later, hposted, hmem⟩ := Thread.mem_handleAll hmem
  have hbefore : .dispose ∉ before := fun hb => h.live hd (hposted ▸ List.mem_append_left _ hb)
  have hsome : (LocalCoreSession.after core session before).session.isSome := session_of_not_mem rfl hbefore
  have hstate : (Thread.handleAll (handleMessage core) (some session) before).1 =
      (LocalCoreSession.after core session before).session := handleAll_fst { session := some session } before
  rw [hstate, hanswer] at hmem
  obtain ⟨target, tensorVersion, rfl, hlocal⟩ := snapshot_of_handleMessage hsome hmem
  exact .inr ⟨before, target, tensorVersion, later, hposted, hlocal⟩

/-- The next answer is taken from the outbox. -/
theorem readNext (h : Inv core session s) {message : Response} {thread : Thread (Option σ) Request Response}
    (hread : s.thread.read = some (message, thread)) : Inv core session
      { s with thread, history := { s.history with answers := s.history.answers ++ [message] } } :=
  { h with
    follows := fun hd => by
      obtain ⟨handled, hf⟩ := h.follows hd
      exact ⟨handled, hf.read hread⟩
    own := fun e he => (h.own e he).more List.prefix_rfl (List.Subset.refl _) }

theorem respond (h : Inv core session s) {message : Response} {thread : Thread (Option σ) Request Response}
    (hread : s.thread.read = some (message, thread)) (throws : Bool) : Inv core session (State.handleResponse
      { s with thread, history := { s.history with answers := s.history.answers ++ [message] } } throws message) := by
  have hnext := h.readNext hread
  have hsettle (requestId : ℕ) (outcome : Except String PolicyObservationSnapshot)
      (hanswer : message = answerOf requestId outcome) : Inv core session (State.settle
        { s with thread, history := { s.history with answers := s.history.answers ++ [message] } } requestId
          outcome) := by
    refine hnext.settle fun hpending => ?_
    cases hd : s.session.disposed with
    | true => exact absurd (h.closed hd ▸ hpending) List.not_mem_nil
    | false => exact (h.answer_own hd hread hanswer).more List.prefix_rfl (List.Subset.refl _)
  cases message with
  | stepped steps focus =>
    unfold State.handleResponse
    dsimp only
    split
    · split
      · exact (hnext.withSteps _ _ _ _ _ _).dispatchStep _ _ throws
      · exact hnext.withSteps _ _ _ _ _ _
    · exact hnext.withSteps _ _ _ _ _ _
  | error text => exact hnext.withSteps _ _ _ _ _ _
  | policySnapshot requestId snapshot => exact hsettle requestId (.ok snapshot) rfl
  | policySnapshotError requestId text => exact hsettle requestId (.error text) rfl

theorem exec (h : Inv core session s) (e : Event) : Inv core session (s.exec core e) := by
  cases e with
  | step dt input throws =>
    show Inv core session (if s.session.disposed = true then s else _)
    split
    · exact h
    · exact (h.withSteps s.session.stepPending s.session.queuedDt s.session.queuedInput s.session.focusValue
        (s.history.stepped ++ [dt]) s.history.lost).dispatchStep dt input throws
  | policySnapshot target tensorVersion thrown => exact h.policySnapshot target tensorVersion thrown
  | setJog node rx ry throws => exact h.jog rfl (by simp) throws
  | clearJog throws => exact h.jog rfl (by simp) throws
  | dispose throws => exact h.dispose throws
  | serve =>
    refine { h with follows := fun hd => ?_ }
    obtain ⟨handled, hf⟩ := h.follows hd
    exact hf.serve
  | respond throws =>
    unfold State.exec
    cases hread : s.thread.read with
    | none => exact h
    | some answer => exact h.respond hread throws
  | timeout requestId => exact h.settle fun _ => .inl ⟨_, rfl, .inl (by simp [refusals])⟩
  | fail => exact (h.withSteps _ _ _ _ _ _).rejectPendingPolicy (by simp [refusals])
  | halt =>
    show Inv core session (if s.terminated = true then _ else s)
    split
    · rename_i hstopped
      exact { h with follows := fun hopen => absurd (hopen.symm.trans (h.stopped hstopped)) Bool.false_ne_true }
    · exact h

end Inv

/-! ### Time -/

/-- The times of the calls are those posted, the one that is queued, and those of the refused steps. -/
def Accounted (s : State σ) : Prop :=
  s.history.stepped.sum = (s.history.posted.filterMap Request.dt).sum + s.session.queuedDt + s.history.lost.sum

namespace Accounted

variable {s : State σ}

/-- A message that is no step. -/
theorem post (h : Accounted s) {r : Request} (hr : r.dt = none) : Accounted (s.postMessage r) := by
  simpa [Accounted, State.postMessage, List.filterMap_append, hr] using h

/-- A step is posted, its time goes to the queue, or the step is refused. -/
theorem dispatchStep {dt : ℚ} (input : DriveInput) (throws : Bool) (h : s.history.stepped.sum =
    (s.history.posted.filterMap Request.dt).sum + s.session.queuedDt + s.history.lost.sum + dt) :
    Accounted (s.dispatchStep dt input throws) := by
  unfold State.dispatchStep
  split
  · refine h.trans ?_
    ring
  · cases throws with
    | true =>
      rw [if_pos rfl, Accounted, List.sum_append, List.sum_singleton]
      exact h.trans (add_assoc _ _ _)
    | false =>
      simp only [Bool.false_eq_true, if_false, Accounted, State.postMessage, List.filterMap_append, List.sum_append]
      refine h.trans ?_
      simp [Request.dt]
      ring

theorem jog (h : Accounted s) {r : Request} (hr : r.dt = none) (throws : Bool) : Accounted (s.jog r throws) := by
  unfold State.jog
  split
  · exact h
  · exact h.post hr

theorem settle (h : Accounted s) (requestId : ℕ) (outcome : Except String PolicyObservationSnapshot) :
    Accounted (s.settle requestId outcome) := by
  unfold State.settle
  split <;> exact h

theorem policySnapshot (h : Accounted s) (target : FocusVector) (tensorVersion : String) (thrown : Option String) :
    Accounted (s.policySnapshot target tensorVersion thrown) := by
  unfold State.policySnapshot
  split
  · exact h
  · cases thrown with
    | none =>
      refine post ?_ rfl
      exact h
    | some message =>
      refine settle ?_ _ _
      exact h

theorem dispose (h : Accounted s) (throws : Bool) : Accounted (s.dispose throws) := by
  unfold State.dispose
  split
  · exact h
  · cases throws with
    | true => exact h
    | false => exact h.post (r := .dispose) rfl

theorem exec (h : Accounted s) (e : Event) : Accounted (s.exec core e) := by
  cases e with
  | step dt input throws =>
    show Accounted (if s.session.disposed = true then s else _)
    split
    · exact h
    · refine dispatchStep input throws ?_
      rw [List.sum_append, h, List.sum_singleton]
  | policySnapshot target tensorVersion thrown => exact policySnapshot h target tensorVersion thrown
  | setJog node rx ry throws => exact jog h rfl throws
  | clearJog throws => exact jog h rfl throws
  | dispose throws => exact dispose h throws
  | respond throws =>
    unfold State.exec
    cases s.thread.read with
    | none => exact h
    | some answer =>
      obtain ⟨message, thread⟩ := answer
      cases message with
      | stepped steps focus =>
        dsimp only [State.handleResponse]
        split
        · split
          · refine dispatchStep _ throws (h.trans ?_)
            simp only
            ring
          · exact h
        · exact h
      | error => exact h
      | policySnapshot requestId snapshot =>
        refine settle ?_ _ _
        exact h
      | policySnapshotError requestId text =>
        refine settle ?_ _ _
        exact h
  | timeout requestId => exact settle h _ _
  | serve => exact h
  | fail => exact h
  | halt =>
    show Accounted (if s.terminated = true then _ else s)
    split <;> exact h

end Accounted

/-! ### The key result -/

/-- What the page may rely on in state `s`, when the worker started with `session`. -/
structure Sound (core : Core σ) (session : σ) (s : State σ) : Prop where
  /-- A promise is settled by a refusal, or as a local session answers after the messages before its own. -/
  asLocal : ∀ e ∈ s.history.settled, Own core session s.history e
  /-- No two observations are asked for under one number. -/
  numbers : (s.history.posted.filterMap Request.requestId).Nodup
  /-- Each promise is settled once or still pending. -/
  settledOnce : Promises s.session.nextPolicyRequestId s.session.pendingPolicy (s.history.settled.map Prod.fst)
  /-- After `dispose` no promise is left open. -/
  allSettled : s.session.disposed = true → s.session.pendingPolicy = []
  noTimeLost : Accounted s

end SessionWorker

end Forge.Studio
