import Forge.Queue.Calls

/-!
# Modal training workers

`ModalAdapter._run_training` (`modal_adapter.py`) as the steps of a worker beside the
transactions of the queue: it spawns a provider call and records it, or resumes the
call its claim carries, polls its lease, and on a lost lease, a timeout or a failed
recording cancels the call at the provider and then records the cancellation. Any
number of workers take these steps in any order, and leases expire and jobs are
reclaimed in between.

The polling loop takes a lost lease for a cancellation. When the lease was lost to
a worker that resumed the same call, the old worker cancels the call that the new
one waits for. `exec` keeps a record of such incidents (`disturbed`).

The **key result** `callOwnership` is about the schedule (`CleanHandover`): where no
worker polls or times out on a call after another one has taken over its job, and no
job is taken over while the cancellation of its call is under way, there are no
incidents, and never two submitted calls for a job. Its invariant is that the calls on
their way to being cancelled are held by nobody else (`CancelsUnheld`).
-/

namespace Forge.Queue.Training

/-- Where a worker is in `_run_training`. -/
inductive Phase where
  /-- The call is spawned and not recorded. -/
  | spawned
  | polling
  /-- About to cancel the call at the provider. -/
  | cancelling
  /-- About to record the cancellation. -/
  | cancelled
  | ended
deriving DecidableEq

/-- One execution of `_run_training`. -/
structure Session where
  claim : ClaimedJob
  callId : String
  phase : Phase
deriving DecidableEq

/-- The queue, the workers and the provider. -/
structure State where
  world : World
  sessions : List Session
  /-- The calls the provider has started. -/
  spawned : List String
  /-- The calls the provider was told to cancel, newest first. -/
  cancelled : List String
  /-- Calls of a leased job that another worker cancelled or whose rows it changed. -/
  disturbed : List String

def State.init : State where
  world := .empty
  sessions := []
  spawned := []
  cancelled := []
  disturbed := []

/-- The steps of the system. -/
inductive Act where
  /-- A transaction of the queue. -/
  | queue (op : Op)
  /-- Resume the call of the claim, or spawn a call, which gets the id `callId`. -/
  | start (h : ClaimedJob) (callId : String)
  /-- Record the spawned call; an answer that does not arrive is an error to the worker. -/
  | recordCall (h : ClaimedJob) (ev : CallEvidence) (answered : Bool)
  | poll (h : ClaimedJob)
  | timeout (h : ClaimedJob)
  /-- The provider returned a result or an error. -/
  | result (h : ClaimedJob)
  /-- `call.cancel(terminate_containers=True)` -/
  | cancel (h : ClaimedJob)
  /-- `_record_provider_cancelled` -/
  | recordCancelled (h : ClaimedJob)

/-- The execution of a claim that is in a phase. -/
def State.at (s : State) (h : ClaimedJob) (p : Phase) : Option Session :=
  s.sessions.find? fun r => r.claim = h && r.phase = p

/-- Move the execution of a claim to a phase. -/
def State.goto (s : State) (h : ClaimedJob) (p : Phase) : State :=
  { s with sessions := Table.update (fun r => r.claim = h) (fun r => { r with phase := p }) s.sessions }

/-- `_job_cancellation_requested`: the lease is not held any more. -/
def cancellationRequested (now : ℕ) (h : ClaimedJob) (db : Db) : Bool :=
  h.leaseToken = "" || !(db.jobs.any (holdsLease now h))

/-- What a step does. -/
def apply (env : GatewayEnv) (s : State) : Act → State
  | .queue op => { s with world := Queue.exec env s.world op }
  | .start h callId =>
    match h.providerCallId with
    | some c => { s with sessions := { claim := h, callId := c, phase := .polling } :: s.sessions }
    | none =>
      { s with
        sessions := { claim := h, callId, phase := .spawned } :: s.sessions
        spawned := callId :: s.spawned }
  | .recordCall h ev answered =>
    match s.at h .spawned with
    | none => s
    | some r =>
      { s with world := Queue.exec env s.world (.recordProviderCall h r.callId ev) }.goto h
        (if (recordProviderCall s.world.now h r.callId ev s.world.db).2 && answered then .polling else .cancelling)
  | .poll h =>
    match s.at h .polling with
    | none => s
    | some _ => if cancellationRequested s.world.now h s.world.db then s.goto h .cancelling else s
  | .timeout h =>
    match s.at h .polling with
    | none => s
    | some _ => s.goto h .cancelling
  | .result h =>
    match s.at h .polling with
    | none => s
    | some _ => s.goto h .ended
  | .cancel h =>
    match s.at h .cancelling with
    | none => s
    | some r => { s with cancelled := r.callId :: s.cancelled }.goto h .cancelled
  | .recordCancelled h =>
    match s.at h .cancelled with
    | none => s
    | some r => { s with world := Queue.exec env s.world (.recordProviderCancelled h.id r.callId) }.goto h .ended

/-- The lease token of the worker that takes the step; gateway and clock have none. -/
def Act.worker : Act → Option String
  | .queue op => op.worker
  | .start h _ | .recordCall h _ _ | .poll h | .timeout h | .result h | .cancel h | .recordCancelled h =>
    some h.leaseToken

/-- The `provider_*` columns. -/
structure ProviderColumns where
  callId : Option String
  functionVersion : Option ℕ
  environment : Option String
  deploymentContractHash : Option String
  submittedAt : Option ℕ
  completedAt : Option ℕ
  cancelledAt : Option ℕ
deriving DecidableEq

def providerColumns (j : Job) : ProviderColumns :=
  { callId := j.providerCallId, functionVersion := j.providerFunctionVersion, environment := j.providerEnvironment,
    deploymentContractHash := j.providerDeploymentContractHash, submittedAt := j.providerSubmittedAt,
    completedAt := j.providerCompletedAt, cancelledAt := j.providerCancelledAt }

/-- The call was cancelled once more, its row changed, or the job's columns did. -/
def callChanged (s s' : State) (j : Job) (callId : String) : Bool :=
  s'.cancelled.count callId ≠ s.cancelled.count callId ||
    (s'.world.db.providerCalls.filter fun k => k.callId = callId) ≠
      (s.world.db.providerCalls.filter fun k => k.callId = callId) ||
    !(s'.world.db.jobs.any fun j' => j'.id = j.id && providerColumns j' = providerColumns j)

/-- The recorded calls of leased jobs that a step of another worker changed. -/
def incidents (s s' : State) (worker : Option String) : List String :=
  match worker with
  | none => []
  | some token =>
    s.world.db.jobs.filterMap fun j =>
      j.providerCallId.filter fun callId => leasedByOther s.world.now token j && callChanged s s' j callId

/-- A step, with the incidents it causes. -/
def exec (env : GatewayEnv) (s : State) (a : Act) : State :=
  let s' := apply env s a
  { s' with disturbed := s'.disturbed ++ incidents s s' a.worker }

/-- What the environment guarantees: the queue's own guarantees, calls recorded and cancelled by the
steps of the workers only, one execution for a claim, and a fresh id for a spawned call. -/
def admissible (s : State) : Act → Prop
  | .queue (.recordProviderCall _ _ _) | .queue (.recordProviderCancelled _ _) => False
  | .queue op => Queue.admissible s.world op ∧ KnowsCall op
  | .start h callId => h ∈ s.world.issued ∧ (∀ r ∈ s.sessions, r.claim ≠ h) ∧ callId ∉ s.spawned
  | .recordCall h _ _ | .poll h | .timeout h | .result h | .cancel h | .recordCancelled h => h ∈ s.world.issued

/-- The training system. -/
def system (env : GatewayEnv) : System State Act where
  init := .init
  step s a s' := admissible s a ∧ exec env s a = s'

/-- Deciding to cancel a call, before the cancellation is recorded. -/
def Phase.isCancelling : Phase → Bool
  | .cancelling | .cancelled => true
  | _ => false

/-- A worker polls or times out on a call only while no other one holds the job that points to it, and no job is
claimed whose call an earlier worker is about to cancel. -/
def CleanHandover (s : State) : Act → Prop
  | .poll h | .timeout h => ∀ r ∈ s.at h .polling, Unheld s.world h.leaseToken r.callId
  | .queue (.claimOne _ pick _ _) => ∀ r ∈ s.sessions, r.phase.isCancelling = true →
      ∀ j ∈ s.world.db.jobs, pick = some j.id → j.providerCallId ≠ some r.callId
  | _ => True

/-- No worker disturbed the call of another one, and no job has two submitted calls. -/
structure CallsOwned (s : State) : Prop where
  undisturbed : s.disturbed = []
  single : ∀ id, (s.world.db.submittedCalls id).length ≤ 1

/-! ### The invariant -/

structure TrainingInv (s : State) : Prop where
  queue : QueueInv s.world
  calls : CallsInv s.world.issued s.world.db

/-- The executions, among the claims issued, the calls recorded and those started: one for a claim, on the call that
the claim carries or on one of its own, which is recorded once the execution has left its first phase. -/
structure SessionsInv (issued : List ClaimedJob) (recorded spawned : List String) (sessions : List Session) : Prop where
  started : ∀ c ∈ recorded, c ∈ spawned
  single : ∀ r ∈ sessions, ∀ r' ∈ sessions, r.claim = r'.claim → r = r'
  issued : ∀ r ∈ sessions, r.claim ∈ issued
  resumed : ∀ r ∈ sessions, ∀ c, r.claim.providerCallId = some c → r.callId = c
  unrecorded : ∀ r ∈ sessions, r.phase = .spawned → r.claim.providerCallId = none ∧ r.callId ∉ recorded
  spawned : ∀ r ∈ sessions, r.claim.providerCallId = none → r.callId ∈ spawned
  own : ∀ r ∈ sessions, ∀ r' ∈ sessions, r.claim.providerCallId = none → r'.claim.providerCallId = none →
    r.callId = r'.callId → r = r'

abbrev State.SessionsInv (s : State) : Prop :=
  Training.SessionsInv s.world.issued s.world.db.callIds s.spawned s.sessions

/-- The calls that are on their way to being cancelled are held by nobody else. -/
def CancelsUnheld (s : State) : Prop :=
  ∀ r ∈ s.sessions, r.phase.isCancelling = true → Unheld s.world r.claim.leaseToken r.callId

section
variable (env : GatewayEnv) {s : State} {a : Act}

theorem State.at_eq_some {h : ClaimedJob} {p : Phase} {r : Session} (hr : s.at h p = some r) :
    r ∈ s.sessions ∧ r.claim = h ∧ r.phase = p :=
  ⟨List.mem_of_find?_eq_some hr, by simpa using List.find?_some hr⟩

theorem not_record {op : Op} (hadm : admissible s (.queue op)) (c : ClaimedJob) (k : String) (ev : CallEvidence) :
    op ≠ .recordProviderCall c k ev := by
  rintro rfl
  exact hadm

/-- A transaction of the queue keeps the invariant. -/
theorem TrainingInv.queueStep (hi : TrainingInv s) {op : Op} (hadm : Queue.admissible s.world op) (hk : KnowsCall op) :
    QueueInv (Queue.exec env s.world op) ∧
      CallsInv (Queue.exec env s.world op).issued (Queue.exec env s.world op).db :=
  ⟨exec_inv env s.world op hi.queue hadm, exec_callsInv env s.world op hi.queue hi.calls hadm hk⟩

/-- What a step does to the tables is what one transaction does, or nothing. -/
theorem apply_world (hadm : admissible s a) : (apply env s a).world = s.world ∨
    ∃ op, Queue.admissible s.world op ∧ KnowsCall op ∧ (apply env s a).world = Queue.exec env s.world op ∧
      (op.worker = a.worker ∨ ∃ h r, a = .recordCancelled h ∧ s.at h .cancelled = some r ∧
        op = .recordProviderCancelled h.id r.callId) := by
  cases a with
  | queue op =>
    have hop : Queue.admissible s.world op ∧ KnowsCall op := by
      cases op with
      | recordProviderCall => exact hadm.elim
      | recordProviderCancelled => exact hadm.elim
      | _ => exact hadm
    exact Or.inr ⟨op, hop.1, hop.2, rfl, Or.inl rfl⟩
  | start h callId =>
    rw [apply]
    split <;> exact Or.inl rfl
  | recordCall h ev answered =>
    rw [apply]
    split
    · exact Or.inl rfl
    · rename_i r hr
      exact Or.inr ⟨.recordProviderCall h r.callId ev, hadm, trivial, rfl, Or.inl rfl⟩
  | poll h =>
    rw [apply]
    split
    · exact Or.inl rfl
    · split_ifs <;> exact Or.inl rfl
  | timeout h =>
    rw [apply]
    split <;> exact Or.inl rfl
  | result h =>
    rw [apply]
    split <;> exact Or.inl rfl
  | cancel h =>
    rw [apply]
    split <;> exact Or.inl rfl
  | recordCancelled h =>
    rw [apply]
    split
    · exact Or.inl rfl
    · rename_i r hr
      exact Or.inr ⟨.recordProviderCancelled h.id r.callId, trivial, trivial, rfl, Or.inr ⟨h, r, rfl, hr, rfl⟩⟩

/-- **Step lemma**: every step keeps the invariant. -/
theorem apply_inv (hi : TrainingInv s) (hadm : admissible s a) : TrainingInv (apply env s a) := by
  rcases apply_world env hadm with heq | ⟨op, hop, hk, heq, -⟩
  · exact ⟨heq ▸ hi.queue, heq ▸ hi.calls⟩
  · obtain ⟨hq, hc⟩ := hi.queueStep env hop hk
    exact ⟨heq ▸ hq, heq ▸ hc⟩

/-! ### Incidents -/

/-- Recording a cancellation changes nothing but the cancelled call and the jobs that point to it. -/
theorem recordProviderCancelled_untouched {now : ℕ} {jobId other callId : String} {db : Db} {j : Job} (hj : j ∈ db.jobs)
    (hptr : j.providerCallId = some callId) (hne : callId ≠ other) :
    Untouched db (recordProviderCancelled now jobId other db) j callId := by
  refine ⟨Table.mem_update_of_not hj (by simp [hptr, hne]), Table.filter_update_eq (fun _ _ _ => rfl) fun k _ hk => ?_⟩
  have hk : k.callId = callId := of_decide_eq_true hk
  simp [hk, hne]

/-- Only a cancelling worker tells the provider anything. -/
theorem apply_cancelled (callId : String) :
    (apply env s a).cancelled.count callId = s.cancelled.count callId ∨
      ∃ h r, a = .cancel h ∧ s.at h .cancelling = some r ∧ r.callId = callId := by
  cases a with
  | cancel h =>
    rw [apply]
    split
    · exact Or.inl rfl
    · rename_i r hr
      by_cases heq : r.callId = callId
      · exact Or.inr ⟨h, r, rfl, hr, heq⟩
      · exact Or.inl (List.count_cons_of_ne heq)
  | poll h =>
    rw [apply]
    split
    · exact Or.inl rfl
    · split_ifs <;> exact Or.inl rfl
  | queue op => exact Or.inl rfl
  | start h c =>
    rw [apply]
    split <;> exact Or.inl rfl
  | recordCall h ev answered =>
    rw [apply]
    split <;> exact Or.inl rfl
  | timeout h =>
    rw [apply]
    split <;> exact Or.inl rfl
  | result h =>
    rw [apply]
    split <;> exact Or.inl rfl
  | recordCancelled h =>
    rw [apply]
    split <;> exact Or.inl rfl

/-- A step causes no incident while the calls that are being cancelled are held by nobody else. -/
theorem incidents_eq_nil (hi : TrainingInv s) (hadm : admissible s a) (hok : CancelsUnheld s) :
    incidents s (apply env s a) a.worker = [] := by
  unfold incidents
  split
  · rfl
  · rename_i token hworker
    refine List.filterMap_eq_nil_iff.mpr fun j hj => ?_
    cases hptr : j.providerCallId with
    | none => rfl
    | some callId =>
      by_cases hheld : leasedByOther s.world.now token j = true
      swap
      · simp [hheld]
      -- the rows are untouched
      have huntouched : Untouched s.world.db (apply env s a).world.db j callId := by
        rcases apply_world env hadm with heq | ⟨op, hop, -, heq, hw | ⟨h, r, rfl, hr, rfl⟩⟩
        · exact .of_eq hj (by rw [heq])
        · rw [heq]
          exact exec_untouched env s.world op hi.queue hi.calls (hw.trans hworker) hj hheld hptr
        · rw [heq]
          obtain rfl := Option.some.inj hworker
          obtain ⟨hmem, rfl, hphase⟩ := State.at_eq_some hr
          exact recordProviderCancelled_untouched hj hptr fun hc =>
            hok r hmem (by rw [hphase]; rfl) j hj hheld (hptr.trans (by rw [hc]))
      have hcount : (apply env s a).cancelled.count callId = s.cancelled.count callId := by
        rcases apply_cancelled env callId (s := s) (a := a) with hcount | ⟨h, r, rfl, hr, hc⟩
        · exact hcount
        · obtain rfl := Option.some.inj hworker
          obtain ⟨hmem, rfl, hphase⟩ := State.at_eq_some hr
          exact absurd (hptr.trans (by rw [hc])) (hok r hmem (by rw [hphase]; rfl) j hj hheld)
      have hcolumns : ((apply env s a).world.db.jobs.any fun j' =>
          j'.id = j.id && providerColumns j' = providerColumns j) = true :=
        List.any_eq_true.mpr ⟨j, huntouched.1, by simp⟩
      have hsame : callChanged s (apply env s a) j callId = false := by
        simp [callChanged, hcount, huntouched.2, hcolumns]
      simp [hsame]

/-! ### Executions -/

theorem mem_goto {h : ClaimedJob} {p : Phase} {r' : Session} : r' ∈ (s.goto h p).sessions ↔
    ∃ r ∈ s.sessions, (if r.claim = h then { r with phase := p } else r) = r' := by
  simp [State.goto, Table.mem_update]

/-- An execution that moves on is the same one; the call that it had started may be recorded by now. -/
theorem SessionsInv.goto {issued : List ClaimedJob} {recorded recorded' : List String}
    (hi : SessionsInv issued recorded s.spawned s.sessions) {r : Session} (hr : r ∈ s.sessions) {p : Phase}
    (hp : p ≠ .spawned)
    (hrecorded : ∀ c ∈ recorded', c ∈ recorded ∨ (r.phase = .spawned ∧ c = r.callId)) :
    SessionsInv issued recorded' s.spawned (s.goto r.claim p).sessions := by
  have hback : ∀ q' ∈ (s.goto r.claim p).sessions, ∃ q ∈ s.sessions, q'.claim = q.claim ∧ q'.callId = q.callId ∧
      (q'.phase = .spawned → q.phase = .spawned ∧ q.claim ≠ r.claim) ∧
      (if q.claim = r.claim then { q with phase := p } else q) = q' := by
    intro q' hq'
    obtain ⟨q, hq, heq⟩ := mem_goto.mp hq'
    refine ⟨q, hq, ?_⟩
    subst heq
    split_ifs with hclaim
    · exact ⟨rfl, rfl, fun hspawned => absurd hspawned hp, rfl⟩
    · exact ⟨rfl, rfl, fun hspawned => ⟨hspawned, hclaim⟩, rfl⟩
  constructor
  · intro c hc
    rcases hrecorded c hc with hc | ⟨hphase, rfl⟩
    · exact hi.started c hc
    · exact hi.spawned r hr (hi.unrecorded r hr hphase).1
  · intro r₁ h₁ r₂ h₂ hclaim
    obtain ⟨q₁, hq₁, hc₁, -, -, rfl⟩ := hback r₁ h₁
    obtain ⟨q₂, hq₂, hc₂, -, -, rfl⟩ := hback r₂ h₂
    rw [hi.single q₁ hq₁ q₂ hq₂ (hc₁.symm.trans (hclaim.trans hc₂))]
  · intro q' hq'
    obtain ⟨q, hq, hclaim, -⟩ := hback q' hq'
    exact hclaim ▸ hi.issued q hq
  · intro q' hq' c hc
    obtain ⟨q, hq, hclaim, hcall, -⟩ := hback q' hq'
    exact hcall.trans (hi.resumed q hq c (hclaim ▸ hc))
  · intro q' hq' hphase
    obtain ⟨q, hq, hclaim, hcall, hspawned, -⟩ := hback q' hq'
    obtain ⟨hspawned, hother⟩ := hspawned hphase
    obtain ⟨hnone, hnot⟩ := hi.unrecorded q hq hspawned
    refine ⟨hclaim ▸ hnone, fun hmem => ?_⟩
    rcases hrecorded _ hmem with hmem | ⟨hphase, heq⟩
    · exact hnot (hcall ▸ hmem)
    · exact hother (congrArg Session.claim
        (hi.own q hq r hr hnone (hi.unrecorded r hr hphase).1 (hcall.symm.trans heq)))
  · intro q' hq' hnone
    obtain ⟨q, hq, hclaim, hcall, -⟩ := hback q' hq'
    exact hcall ▸ hi.spawned q hq (hclaim ▸ hnone)
  · intro r₁ h₁ r₂ h₂ hn₁ hn₂ hcall
    obtain ⟨q₁, hq₁, hc₁, hk₁, -, rfl⟩ := hback r₁ h₁
    obtain ⟨q₂, hq₂, hc₂, hk₂, -, rfl⟩ := hback r₂ h₂
    rw [hi.own q₁ hq₁ q₂ hq₂ (hc₁ ▸ hn₁) (hc₂ ▸ hn₂) (hk₁.symm.trans (hcall.trans hk₂))]

theorem SessionsInv.issue {issued issued' : List ClaimedJob} {recorded spawned : List String} {sessions : List Session}
    (hi : SessionsInv issued recorded spawned sessions) (hsub : ∀ h ∈ issued, h ∈ issued') :
    SessionsInv issued' recorded spawned sessions :=
  { hi with issued := fun r hr => hsub _ (hi.issued r hr) }

/-- A new execution is on the call that its claim carries, or on one that nobody has started. -/
theorem SessionsInv.cons {issued : List ClaimedJob} {recorded spawned spawned' : List String} {sessions : List Session}
    (hi : SessionsInv issued recorded spawned sessions) {q : Session} (hissued : q.claim ∈ issued)
    (hnew : ∀ r ∈ sessions, r.claim ≠ q.claim) (hsub : ∀ c ∈ spawned, c ∈ spawned')
    (hcall : (∃ c, q.claim.providerCallId = some c ∧ q.callId = c ∧ q.phase ≠ .spawned) ∨
      (q.claim.providerCallId = none ∧ q.callId ∉ spawned ∧ q.callId ∈ spawned')) :
    SessionsInv issued recorded spawned' (q :: sessions) := by
  have hfresh (hnone : q.claim.providerCallId = none) : q.callId ∉ spawned ∧ q.callId ∈ spawned' := by
    rcases hcall with ⟨c, hc, -⟩ | ⟨-, h⟩
    · rw [hnone] at hc
      cases hc
    · exact h
  refine ⟨fun c hc => hsub c (hi.started c hc), ?_, ?_, ?_, ?_, ?_, ?_⟩
  · intro r hr r' hr' hclaim
    rcases List.mem_cons.mp hr with rfl | hold <;> rcases List.mem_cons.mp hr' with rfl | hold'
    · rfl
    · exact absurd hclaim.symm (hnew r' hold')
    · exact absurd hclaim (hnew r hold)
    · exact hi.single r hold r' hold' hclaim
  · exact List.forall_mem_cons.mpr ⟨hissued, hi.issued⟩
  · refine List.forall_mem_cons.mpr ⟨fun c hc => ?_, hi.resumed⟩
    rcases hcall with ⟨c', hc', heq, -⟩ | ⟨hnone, -⟩
    · exact heq.trans (Option.some.inj (hc'.symm.trans hc))
    · rw [hnone] at hc
      cases hc
  · refine List.forall_mem_cons.mpr ⟨fun hphase => ?_, hi.unrecorded⟩
    rcases hcall with ⟨c, -, -, hne⟩ | ⟨hnone, hnot, -⟩
    · exact absurd hphase hne
    · exact ⟨hnone, fun hmem => hnot (hi.started _ hmem)⟩
  · exact List.forall_mem_cons.mpr ⟨fun hnone => (hfresh hnone).2, fun r hr hnone => hsub _ (hi.spawned r hr hnone)⟩
  · intro r hr r' hr' hn hn' heq
    rcases List.mem_cons.mp hr with rfl | hold <;> rcases List.mem_cons.mp hr' with rfl | hold'
    · rfl
    · exact absurd (heq ▸ hi.spawned r' hold' hn') (hfresh hn).1
    · exact absurd (heq ▸ hi.spawned r hold hn) (hfresh hn').1
    · exact hi.own r hold r' hold' hn hn' heq

/-- **Step lemma**: every step keeps the executions apart. -/
theorem apply_sessionsInv (hi : s.SessionsInv) (hadm : admissible s a) : (apply env s a).SessionsInv := by
  have hmove {h : ClaimedJob} {p p' : Phase} {r : Session} (hr : s.at h p = some r) (hp : p' ≠ .spawned) :
      SessionsInv s.world.issued s.world.db.callIds s.spawned (s.goto h p').sessions := by
    obtain ⟨hmem, rfl, -⟩ := State.at_eq_some hr
    exact hi.goto hmem hp fun c hc => .inl hc
  cases a with
  | queue op =>
    have hcalls := callIds_exec env s.world (not_record hadm)
    exact (hcalls ▸ hi : SessionsInv _ (Queue.exec env s.world op).db.callIds _ _).issue fun h hh =>
      mem_issued_exec env s.world op hh
  | start h callId =>
    obtain ⟨hissued, hnew, hfresh⟩ := hadm
    rw [apply]
    split
    · rename_i c hc
      exact hi.cons hissued hnew (fun _ => id) (.inl ⟨c, hc, rfl, by simp⟩)
    · rename_i hnone
      exact hi.cons hissued hnew (fun _ => List.mem_cons_of_mem _) (.inr ⟨hnone, hfresh, List.mem_cons_self⟩)
  | recordCall h ev answered =>
    rw [apply]
    split
    · exact hi
    · rename_i r hr
      obtain ⟨hmem, rfl, hphase⟩ := State.at_eq_some hr
      refine SessionsInv.goto (s := s) hi hmem ?_ fun c hc => ?_
      · split_ifs <;> simp
      · exact (callIds_record env s.world r.claim r.callId ev c hc).imp_right fun heq => ⟨hphase, heq⟩
  | poll h =>
    rw [apply]
    split
    · exact hi
    · rename_i r hr
      split_ifs
      · exact hmove hr (by simp)
      · exact hi
  | timeout h =>
    rw [apply]
    split
    · exact hi
    · rename_i r hr
      exact hmove hr (by simp)
  | result h =>
    rw [apply]
    split
    · exact hi
    · rename_i r hr
      exact hmove hr (by simp)
  | cancel h =>
    rw [apply]
    split
    · exact hi
    · rename_i r hr
      exact hmove hr (by simp)
  | recordCancelled h =>
    rw [apply]
    split
    · exact hi
    · rename_i r hr
      obtain ⟨hmem, rfl, -⟩ := State.at_eq_some hr
      have hcalls : (Queue.exec env s.world (.recordProviderCancelled r.claim.id r.callId)).db.callIds = s.world.db.callIds :=
        callIds_exec env s.world (by simp)
      exact SessionsInv.goto (s := s) hi hmem (by simp) fun c hc => .inl (hcalls ▸ hc)

/-- An execution that moves on leaves the calls that are being cancelled to nobody else, when it does so with its own. -/
theorem CancelsUnheld.goto (hc : CancelsUnheld s)
    (hsingle : ∀ r ∈ s.sessions, ∀ r' ∈ s.sessions, r.claim = r'.claim → r = r') {r : Session} (hr : r ∈ s.sessions)
    {p : Phase} (hown : p.isCancelling = true → Unheld s.world r.claim.leaseToken r.callId) :
    CancelsUnheld (s.goto r.claim p) := by
  intro q' hq' hcancelling
  obtain ⟨q, hq, rfl⟩ := mem_goto.mp hq'
  split_ifs at hcancelling ⊢ with hclaim
  · obtain rfl := hsingle q hq r hr hclaim
    exact hown hcancelling
  · exact hc q hq hcancelling

/-- **Step lemma**: in a clean handover no call on its way to being cancelled gets into other hands. -/
theorem apply_cancelsUnheld (hqueue : QueueInv s.world) (hrec : Recorded s.world) (hi : s.SessionsInv)
    (hc : CancelsUnheld s) (hadm : admissible s a) (hok : CleanHandover s a) : CancelsUnheld (apply env s a) := by
  cases a with
  | queue op =>
    intro r hr hcancelling
    by_cases hclaim : ∃ t p k i, op = .claimOne t p k i
    · obtain ⟨t, p, k, i, rfl⟩ := hclaim
      exact (hc r hr hcancelling).claim env (hok r hr hcancelling)
    · exact (hc r hr hcancelling).frame env hqueue.jobs.ids (fun t p k i heq => hclaim ⟨t, p, k, i, heq⟩) (not_record hadm)
  | start h callId =>
    -- a new execution polls its call or has just spawned it
    rw [apply]
    split <;>
    · intro r hr hcancelling
      rcases List.mem_cons.mp hr with rfl | hr
      · cases hcancelling
      · exact hc r hr hcancelling
  | recordCall h ev answered =>
    rw [apply]
    split
    · exact hc
    · rename_i r hr
      obtain ⟨hmem, rfl, hphase⟩ := State.at_eq_some hr
      obtain ⟨hnone, hnew⟩ := hi.unrecorded r hmem hphase
      have hunused : ∀ j ∈ s.world.db.jobs, j.providerCallId ≠ some r.callId := fun j hj hptr =>
        hnew (hrec.pointed j hj _ hptr)
      have hothers : CancelsUnheld { s with world := Queue.exec env s.world (.recordProviderCall r.claim r.callId ev) } :=
        fun q hq hcancelling => (hc q hq hcancelling).record env (fun heq => by
          cases hcarried : q.claim.providerCallId with
          | some c =>
            have hcall : q.callId = c := hi.resumed q hq c hcarried
            exact hnew (heq.trans hcall ▸ hrec.carried q.claim (hi.issued q hq) c hcarried)
          | none =>
            obtain rfl := hi.own r hmem q hq hnone hcarried heq
            rw [hphase] at hcancelling
            cases hcancelling) r.claim ev
      exact hothers.goto hi.single hmem fun _ => unheld_recorded env hunused r.claim ev
  | poll h =>
    rw [apply]
    split
    · exact hc
    · rename_i r hr
      split_ifs
      · have hown := hok r hr
        obtain ⟨hmem, rfl, -⟩ := State.at_eq_some hr
        exact hc.goto hi.single hmem fun _ => hown
      · exact hc
  | timeout h =>
    rw [apply]
    split
    · exact hc
    · rename_i r hr
      have hown := hok r hr
      obtain ⟨hmem, rfl, -⟩ := State.at_eq_some hr
      exact hc.goto hi.single hmem fun _ => hown
  | result h =>
    rw [apply]
    split
    · exact hc
    · rename_i r hr
      obtain ⟨hmem, rfl, -⟩ := State.at_eq_some hr
      exact hc.goto hi.single hmem fun hcancelling => by cases hcancelling
  | cancel h =>
    rw [apply]
    split
    · exact hc
    · rename_i r hr
      obtain ⟨hmem, rfl, hphase⟩ := State.at_eq_some hr
      exact CancelsUnheld.goto (s := { s with cancelled := r.callId :: s.cancelled }) hc hi.single hmem fun _ =>
        hc r hmem (by rw [hphase]; rfl)
  | recordCancelled h =>
    rw [apply]
    split
    · exact hc
    · rename_i r hr
      obtain ⟨hmem, rfl, hphase⟩ := State.at_eq_some hr
      have hall : CancelsUnheld { s with world := Queue.exec env s.world (.recordProviderCancelled r.claim.id r.callId) } :=
        fun q hq hcancelling => (hc q hq hcancelling).frame env hqueue.jobs.ids (by simp) (by simp)
      exact hall.goto hi.single hmem fun hcancelling => by cases hcancelling

end

theorem trainingInv_init : TrainingInv State.init := ⟨inv_empty, callsInv_empty⟩

/-- What holds in every state of a run with clean handovers. -/
structure HandoverInv (s : State) : Prop extends TrainingInv s where
  recorded : Recorded s.world
  sessions : s.SessionsInv
  cancels : CancelsUnheld s
  undisturbed : s.disturbed = []

theorem handoverInv_init : HandoverInv State.init where
  toTrainingInv := trainingInv_init
  recorded := by constructor <;> simp [State.init, World.empty, Db.empty]
  sessions := by constructor <;> simp [State.init, World.empty, Db.empty, Db.callIds]
  cancels := by simp [CancelsUnheld, State.init]
  undisturbed := rfl

/-- **Step lemma**: a clean step keeps all of it. -/
theorem exec_handoverInv (env : GatewayEnv) {s : State} {a : Act} (hi : HandoverInv s) (hadm : admissible s a)
    (hok : CleanHandover s a) : HandoverInv (exec env s a) := by
  have hi' := apply_inv env hi.toTrainingInv hadm
  have hrecorded : Recorded (apply env s a).world := by
    rcases apply_world env hadm with heq | ⟨op, -, -, heq, -⟩
    · exact heq ▸ hi.recorded
    · exact heq ▸ hi.recorded.exec env hi.queue.jobs.ids
  have hkeep : (apply env s a).disturbed = s.disturbed := by
    cases a with
    | poll h =>
      rw [apply]
      split
      · rfl
      · split_ifs <;> rfl
    | queue op => rfl
    | _ =>
      rw [apply]
      split <;> rfl
  refine ⟨⟨hi'.queue, hi'.calls⟩, hrecorded, apply_sessionsInv env hi.sessions hadm,
    apply_cancelsUnheld env hi.queue hi.recorded hi.sessions hi.cancels hadm hok, ?_⟩
  simp only [exec]
  rw [hkeep, hi.undisturbed, incidents_eq_nil env hi.toTrainingInv hadm hi.cancels]
  rfl

/-- **Run lemma**: the invariants hold in every state reached, and with clean handovers no incident has happened. -/
theorem reach_inv {env : GatewayEnv} {s : State} (hs : (system env).Reach CleanHandover s) : HandoverInv s :=
  System.Reach.invariant handoverInv_init
    (fun _ _ _ hi hok hstep => by
      obtain ⟨hadm, rfl⟩ := hstep
      exact exec_handoverInv env hi hadm hok) hs

/-- **Call ownership**: in a run with clean handovers no worker disturbs the call of another one, and no job ever has
two submitted calls. -/
theorem callOwnership (env : GatewayEnv) (s : State) (hs : (system env).Reach CleanHandover s) : CallsOwned s := by
  have hi := reach_inv hs
  exact ⟨hi.undisturbed, hi.calls.one_submitted⟩

/-! ### A handover -/

instance (op : Op) : Decidable (KnowsCall op) :=
  match op with
  | .markRetryable c callId _ _ _ => inferInstanceAs (Decidable (c.providerCallId.isSome = true → callId = c.providerCallId))
  | .tick _ | .createJob _ _ _ _ | .materializeFixture _ _ | .claimOne _ _ _ _ | .readAuthority _
  | .commitSucceeded _ _ _ | .markFailed _ _ _ | .recordProviderCall _ _ _ | .recordProviderCancelled _ _
  | .cancelOwnedJob _ _ | .recordConsent _ _ _ => isTrue trivial

instance (s : State) (a : Act) : Decidable (admissible s a) :=
  match a with
  | .queue (.recordProviderCall _ _ _) | .queue (.recordProviderCancelled _ _) => isFalse id
  | .queue (.tick t) => inferInstanceAs (Decidable (Queue.admissible s.world (.tick t) ∧ KnowsCall (.tick t)))
  | .queue (.createJob r u id i) =>
    inferInstanceAs (Decidable (Queue.admissible s.world (.createJob r u id i) ∧ KnowsCall (.createJob r u id i)))
  | .queue (.materializeFixture id p) =>
    inferInstanceAs (Decidable (Queue.admissible s.world (.materializeFixture id p) ∧ KnowsCall (.materializeFixture id p)))
  | .queue (.claimOne t p k a) =>
    inferInstanceAs (Decidable (Queue.admissible s.world (.claimOne t p k a) ∧ KnowsCall (.claimOne t p k a)))
  | .queue (.readAuthority h) =>
    inferInstanceAs (Decidable (Queue.admissible s.world (.readAuthority h) ∧ KnowsCall (.readAuthority h)))
  | .queue (.commitSucceeded h o f) =>
    inferInstanceAs (Decidable (Queue.admissible s.world (.commitSucceeded h o f) ∧ KnowsCall (.commitSucceeded h o f)))
  | .queue (.markFailed h e c) =>
    inferInstanceAs (Decidable (Queue.admissible s.world (.markFailed h e c) ∧ KnowsCall (.markFailed h e c)))
  | .queue (.markRetryable h k e c r) =>
    inferInstanceAs (Decidable (Queue.admissible s.world (.markRetryable h k e c r) ∧ KnowsCall (.markRetryable h k e c r)))
  | .queue (.cancelOwnedJob u id) =>
    inferInstanceAs (Decidable (Queue.admissible s.world (.cancelOwnedJob u id) ∧ KnowsCall (.cancelOwnedJob u id)))
  | .queue (.recordConsent r u i) =>
    inferInstanceAs (Decidable (Queue.admissible s.world (.recordConsent r u i) ∧ KnowsCall (.recordConsent r u i)))
  | .start h callId =>
    inferInstanceAs (Decidable (h ∈ s.world.issued ∧ (∀ r ∈ s.sessions, r.claim ≠ h) ∧ callId ∉ s.spawned))
  | .recordCall h _ _ | .poll h | .timeout h | .result h | .cancel h | .recordCancelled h =>
    inferInstanceAs (Decidable (h ∈ s.world.issued))

instance (w : World) (token callId : String) : Decidable (Unheld w token callId) :=
  inferInstanceAs (Decidable (∀ j ∈ w.db.jobs, leasedByOther w.now token j = true → j.providerCallId ≠ some callId))

instance (s : State) (a : Act) : Decidable (CleanHandover s a) :=
  match a with
  | .poll h | .timeout h => inferInstanceAs (Decidable (∀ r ∈ s.at h .polling, Unheld s.world h.leaseToken r.callId))
  | .queue (.claimOne _ pick _ _) =>
    inferInstanceAs (Decidable (∀ r ∈ s.sessions, r.phase.isCancelling = true →
      ∀ j ∈ s.world.db.jobs, pick = some j.id → j.providerCallId ≠ some r.callId))
  | .queue (.tick _) | .queue (.createJob _ _ _ _) | .queue (.materializeFixture _ _) | .queue (.readAuthority _)
  | .queue (.commitSucceeded _ _ _) | .queue (.markFailed _ _ _) | .queue (.markRetryable _ _ _ _ _)
  | .queue (.recordProviderCall _ _ _) | .queue (.recordProviderCancelled _ _) | .queue (.cancelOwnedJob _ _)
  | .queue (.recordConsent _ _ _) | .start _ _ | .recordCall _ _ _ | .result _ | .cancel _ | .recordCancelled _ =>
    isTrue trivial

/-- The system after a list of steps. -/
def run (env : GatewayEnv) (s : State) (acts : List Act) : State := acts.foldl (exec env) s

/-- Every step of the list is admissible and satisfies `ok` when its turn comes. -/
def admissibleRun (env : GatewayEnv) (ok : State → Act → Prop) [∀ s a, Decidable (ok s a)] : State → List Act → Bool
  | _, [] => true
  | s, a :: acts => decide (admissible s a ∧ ok s a) && admissibleRun env ok (exec env s a) acts

theorem steps_run {env : GatewayEnv} {ok : State → Act → Prop} [∀ s a, Decidable (ok s a)] {s : State} {acts : List Act}
    (h : admissibleRun env ok s acts = true) : (system env).Steps ok s (run env s acts) := by
  induction acts generalizing s with
  | nil => exact .refl
  | cons a acts ih =>
    rw [admissibleRun, Bool.and_eq_true, decide_eq_true_eq] at h
    have hstep : (system env).step s a (exec env s a) := ⟨h.1.1, rfl⟩
    exact (System.Steps.refl.tail h.1.2 hstep).trans (ih h.2)

/-- The first claim of the training job, valid for the eight hours of the kind. -/
def firstClaim : ClaimedJob where
  id := "job-1"
  task := .trainPolicy
  payload := .object []
  idempotencyKey := "job-1"
  attempts := 1
  provider := .modal
  attemptId := "attempt-1"
  leaseToken := "token-1"
  leaseExpiresAt := 28800 * second
  maxAttempts := 3
  timeoutSeconds := 28800
  providerCallId := none

/-- The claim of the worker that takes over, with the call it resumes. -/
def secondClaim : ClaimedJob :=
  { firstClaim with
    attempts := 2
    attemptId := "attempt-2"
    leaseToken := "token-2"
    leaseExpiresAt := 28801 * second + 28800 * second
    providerCallId := some "call-1" }

def sampleEvidence : CallEvidence where
  functionVersion := 1
  environment := "main"
  deploymentContractHash := "hash"
  submittedAt := 0

/-- A training call is recorded, its worker polls, the lease runs out, and another worker resumes the call. -/
def handover : List Act :=
  [.queue (.createJob { sampleReadings with authoritativePayload := .object [] } "user-1" "job-1"
     { kind := .trainPolicy, provider := .modal, payload := .object [], idempotencyKey := none }),
   .queue (.claimOne [.trainPolicy] (some "job-1") "token-1" "attempt-1"),
   .start firstClaim "call-1",
   .recordCall firstClaim sampleEvidence true,
   .poll firstClaim,
   .queue (.tick (28801 * second)),
   .queue (.claimOne [.trainPolicy] (some "job-1") "token-2" "attempt-2"),
   .start secondClaim "call-2"]

/-- The handover itself disturbs nothing, also when the new worker polls, times out and cancels its call. -/
theorem callOwnership_handover :
    CallsOwned (run sampleEnv .init
        (handover ++ [.poll secondClaim, .timeout secondClaim, .cancel secondClaim, .recordCancelled secondClaim])) ∧
      (run sampleEnv .init
        (handover ++ [.poll secondClaim, .timeout secondClaim, .cancel secondClaim, .recordCancelled secondClaim])).cancelled
        = ["call-1"] :=
  ⟨callOwnership sampleEnv _ (steps_run (by decide)), by decide⟩

/-- The first worker polls its lost lease and cancels the call that the second one waits for. -/
theorem callOwnership_broken_by_poll :
    (system sampleEnv).Reachable
        (run sampleEnv .init (handover ++ [.poll firstClaim, .cancel firstClaim, .recordCancelled firstClaim])) ∧
      ¬ CallsOwned (run sampleEnv .init (handover ++ [.poll firstClaim, .cancel firstClaim, .recordCancelled firstClaim])) :=
  ⟨steps_run (by decide), fun h => absurd h.undisturbed (by decide)⟩

end Forge.Queue.Training
