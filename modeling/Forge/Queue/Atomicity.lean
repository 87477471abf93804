import Forge.Queue.Fencing
import Forge.Queue.Statements

/-!
# Which job creations are atomic

A creation that throws should leave the job, credit and artifact tables as they
were, and one that returns a fixture job that is done should leave the artifact of
that job. In a transaction both hold whatever fails, because a failure takes back
everything. Outside a transaction the row of the job is committed before that of its
artifact: if the second statement fails, the call throws with the job in place, and a
replay of the key then returns that job (`creationAtomic_iff`).
-/

namespace Forge.Queue

/-! ### What is promised -/

/-- The balance that the gateway reports: an account that does not exist counts as empty. -/
def Store.balance (s : Store) (user : String) : ℤ :=
  ((Table.find CreditAccount.userId user s.creditAccounts).map CreditAccount.balanceCredits).getD 0

/-- Two states with the same jobs, credits and artifacts. -/
structure SameContents (s t : Store) : Prop where
  jobs : t.jobs = s.jobs
  ledger : t.creditLedger = s.creditLedger
  balance : ∀ user, t.balance user = s.balance user
  policies : t.policyArtifacts = s.policyArtifacts
  photoscans : t.photoscanArtifacts = s.photoscanArtifacts
  telemetry : t.telemetryLogs = s.telemetryLogs
  maintenance : t.maintenanceRecords = s.maintenanceRecords

theorem SameContents.refl (s : Store) : SameContents s s := ⟨rfl, rfl, fun _ => rfl, rfl, rfl, rfl, rfl⟩

/-- The artifact row of a fixture job is there. Logs and maintenance records name no job: their row is
the one that the job's input and output describe. -/
def Store.hasArtifact (s : Store) (j : Job) : Bool :=
  let output := j.output.getD .null
  match j.kind with
  | .photoscanSingle | .photoscanMultiview => s.photoscanArtifacts.any fun a => a.jobId = j.id
  | .trainPolicy => s.policyArtifacts.any fun p => p.jobId = some j.id
  | .bridgeTelemetryIngest =>
    s.telemetryLogs.any fun t => { t with privacy := .null } =
      { telemetryRow j.ownerUserId j.input output with privacy := .null }
  | .maintenanceEstimateWear => maintenanceRow j.ownerUserId "wear-estimate" j.input output ∈ s.maintenanceRecords
  | .maintenanceCrashForensics => maintenanceRow j.ownerUserId "crash-forensics" j.input output ∈ s.maintenanceRecords
  | .maintenanceRepairSheet => maintenanceRow j.ownerUserId "repair-sheet" j.input output ∈ s.maintenanceRecords
  | _ => true

/-- A call on a state is atomic, and a fixture job that it returns as done has its artifact. -/
def AtomicOn (call : StoreCall Job) (s : Store) : Prop :=
  (∀ e t, call s = (.error e, t) → SameContents s t) ∧
    ∀ j t, call s = (.ok j, t) → j.provider = .fixture → j.status = .succeeded → t.hasArtifact j = true

/-! ### When it fails -/

/-- The job that an idempotency key is bound to. -/
def Store.boundJob (s : Store) (key : Option String) : Option Job :=
  key.bind fun k => s.jobs.find? fun j => j.idempotencyKey = some k

/-- The fixture job of a request, as it would be inserted. -/
def fixtureJob (env : StoreEnv) (ctx : CallContext) (readings : Readings) (now : ℕ) (user : String)
    (input : CreateJobInput) (output : Json) : Job :=
  newFixtureJob now user ctx.draws.jobId input (input.idempotencyKey.map (env.scopedJobIdempotencyKey user))
    readings.authoritativePayload output

/-- The fixture request passes its checks, and nothing fails up to its `INSERT INTO jobs`. -/
def reachesInsert (env : StoreEnv) (ctx : CallContext) (readings : Readings) (user : String) (input : CreateJobInput)
    (s : Store) : Prop :=
  readings.refusal = none ∧ refusePhotoscan input = .ok () ∧
    ((consentRequirements input.kind input.payload).forM fun r =>
      assertActiveConsent env.toGatewayEnv readings s.toDb user r.1 r.2) = .ok () ∧
    input.provider = .fixture ∧ ctx.faults .ensureCreditAccount = none ∧ ctx.faults .insertJob = none

/-- The kinds whose fixture artifact is a row that refers to a model. -/
def JobKind.referring : JobKind → Bool
  | .bridgeTelemetryIngest | .maintenanceEstimateWear | .maintenanceCrashForensics | .maintenanceRepairSheet => true
  | _ => false

/-- Outside a transaction, the artifact row of a new fixture job is refused: by a fault, or because the
payload names a model that does not exist. -/
def halfMade (env : StoreEnv) (ctx : CallContext) (readings : Readings) (user : String) (input : CreateJobInput)
    (s : Store) : Prop :=
  reachesInsert env ctx readings user input s ∧ input.transactional = false ∧ input.kind.referring = true ∧
    (∃ output, fixtureJobOutput env input.kind readings.authoritativePayload = .ok output) ∧
    s.boundJob (input.idempotencyKey.map (env.scopedJobIdempotencyKey user)) = none ∧
    (∀ j ∈ s.jobs, j.id ≠ ctx.draws.jobId) ∧
    (ctx.faults .insertArtifact ≠ none ∨
      ∃ m, modelIdFrom readings.authoritativePayload = some m ∧ m ∉ s.modelIds)

/-- The request replays a fixture job that is done and has no artifact. -/
def bareReplay (env : StoreEnv) (ctx : CallContext) (readings : Readings) (user : String) (input : CreateJobInput)
    (s : Store) : Prop :=
  reachesInsert env ctx readings user input s ∧ (input.transactional = true → ctx.faults .commit = none) ∧
    (∃ output, fixtureJobOutput env input.kind readings.authoritativePayload = .ok output) ∧
    ∃ j, s.boundJob (input.idempotencyKey.map (env.scopedJobIdempotencyKey user)) = some j ∧
      j.ownerUserId = user ∧ j.kind = input.kind ∧ j.provider = .fixture ∧
      j.input.beq readings.authoritativePayload = true ∧ j.status = .succeeded ∧ s.hasArtifact j = false

/-! ### The statements -/

/-- The store once the credit account exists. -/
def Store.ensured (user : String) (s : Store) : Store := { s with toDb := ensureCreditAccount user s.toDb }

theorem ensured_tables (user : String) (s : Store) : (s.ensured user).jobs = s.jobs ∧
    (s.ensured user).creditLedger = s.creditLedger ∧ (s.ensured user).consentEvents = s.consentEvents := by
  unfold Store.ensured ensureCreditAccount
  split <;> exact ⟨rfl, rfl, rfl⟩

/-- A new account is empty, as the missing one was. -/
theorem ensured_same (user : String) (s : Store) : SameContents s (s.ensured user) := by
  obtain ⟨hj, hl, -⟩ := ensured_tables user s
  refine ⟨hj, hl, fun u => ?_, rfl, rfl, rfl, rfl⟩
  unfold Store.balance Store.ensured ensureCreditAccount
  split
  · rfl
  · rename_i hno
    rw [Table.find_append]
    cases hf : Table.find CreditAccount.userId u s.creditAccounts with
    | some a => rfl
    | none =>
      by_cases hu : user = u <;> simp [Table.find, hu]

theorem SameContents.trans {s t u : Store} (h : SameContents s t) (h' : SameContents t u) : SameContents s u :=
  ⟨h'.jobs.trans h.jobs, h'.ledger.trans h.ledger, fun v => (h'.balance v).trans (h.balance v),
    h'.policies.trans h.policies, h'.photoscans.trans h.photoscans, h'.telemetry.trans h.telemetry,
    h'.maintenance.trans h.maintenance⟩

/-- The key is bound to a request that is the same. -/
theorem insertJob_bound (new : Job) {j : Job} (db : Db)
    (hb : (new.idempotencyKey.bind fun k => db.jobs.find? fun j => j.idempotencyKey = some k) = some j) :
    insertJob new db =
      if j.ownerUserId = new.ownerUserId ∧ j.kind = new.kind ∧ j.provider = new.provider ∧
          j.input.beq new.input then .ok (db, j, false)
      else .error { message := "job idempotency key is already bound to a different request", statusCode := 409 } := by
  simp only [insertJob, hb]

theorem insertJob_unbound (new : Job) (db : Db)
    (hb : (new.idempotencyKey.bind fun k => db.jobs.find? fun j => j.idempotencyKey = some k) = none) :
    insertJob new db =
      if db.jobs.any fun j => j.id = new.id then .error { message := "job id is already taken", statusCode := 500 }
      else .ok ({ db with jobs := db.jobs ++ [new] }, new, true) := by
  simp only [insertJob, hb]

/-- The fixture output of a kind is of the kind's artifact kind. -/
theorem artifactKind_fixture {env : StoreEnv} {kind : JobKind} {payload output : Json}
    (h : fixtureJobOutput env kind payload = .ok output) : artifactKind output = fixtureArtifactKind kind := by
  unfold fixtureJobOutput at h
  split at h
  · rename_i hk
    cases h
    rw [hk]
    rfl
  · rename_i name hk
    obtain ⟨ms, -, rfl⟩ := map_eq_ok.mp h
    rw [hk]
    rw [artifactKind, Json.member, Assoc.get_cons, if_pos rfl]
    rfl

/-- A job whose output is a fixture of its kind. -/
structure FixtureJob (user : String) (j : Job) (o : Json) : Prop where
  owner : j.ownerUserId = user
  output : j.output = some o
  kind : artifactKind o = fixtureArtifactKind j.kind

/-- **The artifact of a kind that refers to a model** is one row. -/
theorem materialize_referring (env : StoreEnv) (ctx : CallContext) {user : String} {j : Job} {output : Json}
    (h : FixtureJob user j output) (hk : j.kind.referring = true) : ∃ write : Store → Store,
      materializeJobOutput env ctx user j = insertReferring ctx (modelIdFrom j.input) write ∧
      ∀ s, (write s).hasArtifact j = true ∧ (write s).jobs = s.jobs := by
  obtain ⟨rfl, hout, hkind⟩ := h
  cases hj : j.kind <;> rw [hj] at hk hkind <;> try (cases hk)
  all_goals
    simp only [fixtureArtifactKind] at hkind
    simp only [materializeJobOutput, hout, hkind]
  · exact ⟨_, rfl, fun s => ⟨by simp [Store.hasArtifact, hj, hout], rfl⟩⟩
  · exact ⟨_, rfl, fun s => ⟨by simp [Store.hasArtifact, hj, hout], rfl⟩⟩
  · exact ⟨_, rfl, fun s => ⟨by simp [Store.hasArtifact, hj, hout], rfl⟩⟩
  · exact ⟨_, rfl, fun s => ⟨by simp [Store.hasArtifact, hj, hout], rfl⟩⟩

/-- The kinds whose fixture leaves no row. -/
theorem materialize_plain {env : StoreEnv} {ctx : CallContext} {user : String} {j : Job} {output : Json}
    (h : FixtureJob user j output) (hk : j.kind.referring = false) (hp : j.kind ≠ .photoscanSingle)
    (hm : j.kind ≠ .photoscanMultiview) (ht : j.kind ≠ .trainPolicy) :
    materializeJobOutput env ctx user j = pure none := by
  obtain ⟨-, hout, hkind⟩ := h
  cases hj : j.kind <;> rw [hj] at hk hkind hp hm ht <;> try (cases hk)
  all_goals
    simp only [fixtureArtifactKind] at hkind
    simp only [materializeJobOutput, hout, hkind]
  · rfl
  · rfl
  · exact absurd rfl hp
  · exact absurd rfl hm
  · exact absurd rfl ht
  all_goals rfl

theorem materialize_photoscan {env : StoreEnv} {ctx : CallContext} {user : String} {j : Job} {output : Json}
    (h : FixtureJob user j output) (hk : j.kind = .photoscanSingle ∨ j.kind = .photoscanMultiview) :
    materializeJobOutput env ctx user j = materializePhotoscan env ctx user j output := by
  obtain ⟨-, hout, hkind⟩ := h
  rcases hk with hk | hk <;>
  · rw [hk] at hkind
    simp only [fixtureArtifactKind] at hkind
    simp only [materializeJobOutput, hout, hkind]

theorem materialize_policy {env : StoreEnv} {ctx : CallContext} {user : String} {j : Job} {output : Json}
    (h : FixtureJob user j output) (hk : j.kind = .trainPolicy) :
    materializeJobOutput env ctx user j = materializePolicy env ctx user j output := by
  obtain ⟨-, hout, hkind⟩ := h
  rw [hk] at hkind
  simp only [fixtureArtifactKind] at hkind
  simp only [materializeJobOutput, hout, hkind]

theorem statement_eq_ok {α : Type} {ctx : CallContext} {k : Statement} {x : StoreCall α} {s t : Store} {a : α} :
    ctx.statement k x s = (.ok a, t) ↔ ctx.faults k = none ∧ x s = (.ok a, t) := Call.orFail_eq_ok

/-- A photoscan that is materialised has its artifact. -/
theorem materializePhotoscan_artifact {env : StoreEnv} {ctx : CallContext} {user : String} {j : Job} {output : Json}
    {s t : Store} {p : Option Json} (h : materializePhotoscan env ctx user j output s = (.ok p, t)) :
    p = none ∧ ∃ a ∈ t.photoscanArtifacts, a.jobId = j.id := by
  obtain ⟨blob, s₁, -, h⟩ := Call.bind_eq_ok.mp h
  obtain ⟨_, s₂, hins, h⟩ := Call.bind_eq_ok.mp h
  obtain ⟨-, hins⟩ := statement_eq_ok.mp hins
  cases hins
  cases h
  exact ⟨rfl, _, List.mem_append_right _ (List.mem_singleton.mpr rfl), rfl⟩

theorem insertPolicyArtifact_eq_ok {ctx : CallContext} {row : PolicyArtifact} {s t : Store} {u : Unit}
    (h : insertPolicyArtifact ctx row s = (.ok u, t)) :
    t = { s with policyArtifacts := s.policyArtifacts ++ [row] } := by
  obtain ⟨-, h⟩ := statement_eq_ok.mp h
  split at h
  · cases h
  · split at h
    · cases h
    · exact (Prod.mk.inj h).2.symm

/-- A policy that is materialised has its artifact. -/
theorem materializePolicy_artifact {env : StoreEnv} {ctx : CallContext} {user : String} {j : Job} {output : Json}
    {s t : Store} {p : Option Json} (h : materializePolicy env ctx user j output s = (.ok p, t)) :
    ∃ a ∈ t.policyArtifacts, a.jobId = some j.id := by
  obtain ⟨prepared, s₁, -, h⟩ := Call.bind_eq_ok.mp h
  obtain ⟨_, s₂, -, h⟩ := Call.bind_eq_ok.mp h
  obtain ⟨blob, s₃, -, h⟩ := Call.bind_eq_ok.mp h
  obtain ⟨_, s₄, hins, h⟩ := Call.bind_eq_ok.mp h
  obtain ⟨_, s₅, hmeta, h⟩ := Call.bind_eq_ok.mp h
  obtain ⟨_, s₆, hjob, h⟩ := Call.bind_eq_ok.mp h
  have hins := insertPolicyArtifact_eq_ok hins
  have hmeta := (Prod.mk.inj (statement_eq_ok.mp hmeta).2).2
  have hjob := (Prod.mk.inj (statement_eq_ok.mp hjob).2).2
  have ht := (Prod.mk.inj h).2
  -- the two updates keep the job of every row
  have hids : some j.id ∈ t.policyArtifacts.map PolicyArtifact.jobId := by
    rw [← ht, ← hjob, ← hmeta, hins]
    have hkeep := Table.map_update (g := PolicyArtifact.jobId)
      (p := fun p => decide (p.id = ctx.draws.policyArtifactId) && decide (p.ownerUserId = user) &&
        decide (p.jobId = some j.id))
      (f := fun p => { p with policyMetadata := .object (withDelivery "policyArtifactId" ctx.draws.policyArtifactId
        (withDelivery "artifactBlobId" blob prepared.output)) }) (fun _ _ => rfl)
    simp only [hkeep]
    rw [List.map_append]
    exact List.mem_append_right _ (List.mem_singleton.mpr rfl)
  obtain ⟨a, ha, hid⟩ := List.mem_map.mp hids
  exact ⟨a, ha, hid⟩

/-- **What materialising leaves**: the artifact of the job. -/
theorem materialize_artifact {env : StoreEnv} {ctx : CallContext} {user : String} {j : Job} {output : Json}
    {s t : Store} {p : Option Json} (h : FixtureJob user j output)
    (hm : materializeJobOutput env ctx user j s = (.ok p, t)) :
    t.hasArtifact { j with output := p.or j.output } = true := by
  by_cases hr : j.kind.referring = true
  · obtain ⟨write, he, hw⟩ := materialize_referring env ctx h hr
    rw [he] at hm
    obtain ⟨-, hm⟩ := statement_eq_ok.mp hm
    split at hm
    · cases hm
    · cases hm
      exact (hw s).1
  · by_cases hp : j.kind = .photoscanSingle ∨ j.kind = .photoscanMultiview
    · rw [materialize_photoscan h hp] at hm
      obtain ⟨rfl, a, ha, hid⟩ := materializePhotoscan_artifact hm
      have hany : (t.photoscanArtifacts.any fun a => a.jobId = j.id) = true :=
        List.any_eq_true.mpr ⟨a, ha, by simpa using hid⟩
      rcases hp with hp | hp <;> simpa [Store.hasArtifact, hp] using hany
    · by_cases ht : j.kind = .trainPolicy
      · rw [materialize_policy h ht] at hm
        obtain ⟨a, ha, hid⟩ := materializePolicy_artifact hm
        have hany : (t.policyArtifacts.any fun p => p.jobId = some j.id) = true :=
          List.any_eq_true.mpr ⟨a, ha, by simpa using hid⟩
        simpa [Store.hasArtifact, ht] using hany
      · cases hk : j.kind <;> simp_all [Store.hasArtifact, JobKind.referring]

/-! ### Creations of fixture jobs -/

section

variable {env : StoreEnv} {ctx : CallContext} {readings : Readings} {now : ℕ} {user : String} {input : CreateJobInput}
variable {s t : Store} {j : Job} {output : Json}

/-- The key of the row of a request. -/
abbrev rowKey (env : StoreEnv) (user : String) (input : CreateJobInput) : Option String :=
  input.idempotencyKey.map (env.scopedJobIdempotencyKey user)

variable (ctx now user) in
theorem fixtureJob_isFixture (h : fixtureJobOutput env input.kind readings.authoritativePayload = .ok output) :
    FixtureJob user (fixtureJob env ctx readings now user input output) output :=
  ⟨rfl, rfl, artifactKind_fixture h⟩

/-- The store with a new job. -/
def Store.withJob (j : Job) (s : Store) : Store := { s with toDb := { s.toDb with jobs := s.jobs ++ [j] } }

theorem insertJobStatement_ok {new : Job} {db : Db} {r : Job × Bool} (hf : ctx.faults .insertJob = none)
    (h : insertJob new s.toDb = .ok (db, r)) : insertJobStatement ctx new s = (.ok r, { s with toDb := db }) := by
  simp only [insertJobStatement, CallContext.statement, hf, Call.orFail, h]

theorem insertJobStatement_error {new : Job} {e : GatewayError}
    (h : ctx.faults .insertJob = some e ∨ ctx.faults .insertJob = none ∧ insertJob new s.toDb = .error e) :
    insertJobStatement ctx new s = (.error e, s) := by
  rcases h with hf | ⟨hf, h⟩
  · simp only [insertJobStatement, CallContext.statement, hf, Call.orFail, Call.throw]
  · simp only [insertJobStatement, CallContext.statement, hf, Call.orFail, h]

/-- The creation of a fixture job, once its output is there. -/
theorem createFixture_apply (hout : fixtureJobOutput env input.kind readings.authoritativePayload = .ok output) :
    createFixture env ctx now user input (rowKey env user input) readings.authoritativePayload s =
      (insertJobStatement ctx (fixtureJob env ctx readings now user input output) >>=
        finishFixture env ctx user) s := by
  rw [createFixture, hout]
  rfl

/-- The `INSERT INTO jobs` of a fixture request under a free key and a fresh id. -/
theorem createFixture_new (hout : fixtureJobOutput env input.kind readings.authoritativePayload = .ok output)
    (hf : ctx.faults .insertJob = none) (hb : s.boundJob (rowKey env user input) = none)
    (hid : ∀ k ∈ s.jobs, k.id ≠ ctx.draws.jobId) :
    createFixture env ctx now user input (rowKey env user input) readings.authoritativePayload s =
      finishFixture env ctx user (fixtureJob env ctx readings now user input output, true)
        (s.withJob (fixtureJob env ctx readings now user input output)) := by
  have hins : insertJob (fixtureJob env ctx readings now user input output) s.toDb =
      .ok ({ s.toDb with jobs := s.jobs ++ [fixtureJob env ctx readings now user input output] },
        fixtureJob env ctx readings now user input output, true) := by
    rw [insertJob_unbound _ _ (by exact hb), if_neg]
    have hfree : ¬ (s.jobs.any fun k => k.id = ctx.draws.jobId) = true := by simpa using hid
    exact hfree
  rw [createFixture_apply hout, Call.bind_apply, insertJobStatement_ok hf hins]
  rfl

/-- The `INSERT INTO jobs` of a fixture request whose key is bound to the same request. -/
theorem createFixture_replay (hout : fixtureJobOutput env input.kind readings.authoritativePayload = .ok output)
    (hf : ctx.faults .insertJob = none) (hb : s.boundJob (rowKey env user input) = some j)
    (hsame : j.ownerUserId = user ∧ j.kind = input.kind ∧ j.provider = .fixture ∧
      j.input.beq readings.authoritativePayload = true) (hp : input.provider = .fixture) :
    createFixture env ctx now user input (rowKey env user input) readings.authoritativePayload s = (.ok j, s) := by
  have hins : insertJob (fixtureJob env ctx readings now user input output) s.toDb = .ok (s.toDb, j, false) := by
    rw [insertJob_bound _ _ (by exact hb), if_pos]
    exact ⟨hsame.1, hsame.2.1, hsame.2.2.1.trans hp.symm, hsame.2.2.2⟩
  rw [createFixture_apply hout, Call.bind_apply, insertJobStatement_ok hf hins]
  rfl

variable (env ctx readings now user) in
/-- **The three ways a fixture creation goes**: it throws before its row is there, it replays a job that
the key is bound to, or it inserts the row and materialises the artifact. -/
theorem createFixture_cases (hp : input.provider = .fixture) (s : Store) :
    (∃ e, createFixture env ctx now user input (rowKey env user input) readings.authoritativePayload s =
      (.error e, s)) ∨
    (∃ j output, fixtureJobOutput env input.kind readings.authoritativePayload = .ok output ∧
      ctx.faults .insertJob = none ∧ s.boundJob (rowKey env user input) = some j ∧
      (j.ownerUserId = user ∧ j.kind = input.kind ∧ j.provider = .fixture ∧
        j.input.beq readings.authoritativePayload = true) ∧
      createFixture env ctx now user input (rowKey env user input) readings.authoritativePayload s = (.ok j, s)) ∨
    ∃ output, fixtureJobOutput env input.kind readings.authoritativePayload = .ok output ∧
      ctx.faults .insertJob = none ∧ s.boundJob (rowKey env user input) = none ∧
      (∀ k ∈ s.jobs, k.id ≠ ctx.draws.jobId) := by
  cases hout : fixtureJobOutput env input.kind readings.authoritativePayload with
  | error e =>
    refine .inl ⟨e, ?_⟩
    rw [createFixture, hout]
    rfl
  | ok output =>
    have hfail : ∀ e, (ctx.faults .insertJob = some e ∨ ctx.faults .insertJob = none ∧
        insertJob (fixtureJob env ctx readings now user input output) s.toDb = .error e) →
        createFixture env ctx now user input (rowKey env user input) readings.authoritativePayload s =
          (.error e, s) := fun e he => by
      rw [createFixture_apply hout, Call.bind_apply, insertJobStatement_error he]
    cases hf : ctx.faults .insertJob with
    | some e => exact .inl ⟨e, hfail e (.inl hf)⟩
    | none =>
      cases hb : s.boundJob (rowKey env user input) with
      | some j =>
        by_cases hsame : j.ownerUserId = user ∧ j.kind = input.kind ∧ j.provider = .fixture ∧
            j.input.beq readings.authoritativePayload = true
        · exact .inr (.inl ⟨j, output, rfl, rfl, rfl, hsame, createFixture_replay hout hf hb hsame hp⟩)
        · have hins := insertJob_bound (fixtureJob env ctx readings now user input output) s.toDb
            (by exact hb)
          rw [if_neg fun hc => hsame ⟨hc.1, hc.2.1, hc.2.2.1.trans hp, hc.2.2.2⟩] at hins
          exact .inl ⟨_, hfail _ (.inr ⟨hf, hins⟩)⟩
      | none =>
        by_cases hid : ∀ k ∈ s.jobs, k.id ≠ ctx.draws.jobId
        · exact .inr (.inr ⟨output, rfl, rfl, rfl, hid⟩)
        · have hins := insertJob_unbound (fixtureJob env ctx readings now user input output) s.toDb
            (by exact hb)
          have htaken : (s.jobs.any fun k => k.id = ctx.draws.jobId) = true := by simpa using hid
          rw [if_pos (by exact htaken)] at hins
          exact .inl ⟨_, hfail _ (.inr ⟨hf, hins⟩)⟩

/-- A creation whose checks pass is `createUnchecked`. -/
theorem createBody_apply : createBody env ctx readings now user input s =
    match (consentRequirements input.kind input.payload).forM fun r =>
      assertActiveConsent env.toGatewayEnv readings s.toDb user r.1 r.2 with
    | .error e => (.error e, s)
    | .ok () => createUnchecked env ctx readings now user input s := by
  simp only [createBody, Call.bind_apply, Call.read, Call.ofExcept]
  cases (consentRequirements input.kind input.payload).forM fun r =>
    assertActiveConsent env.toGatewayEnv readings s.toDb user r.1 r.2 <;> rfl

theorem createUnchecked_apply : createUnchecked env ctx readings now user input s =
    match ctx.faults .ensureCreditAccount with
    | some e => (.error e, s)
    | none =>
      if input.provider = .fixture then
        createFixture env ctx now user input (rowKey env user input) readings.authoritativePayload (s.ensured user)
      else
        createLive env ctx now user input (rowKey env user input) readings.authoritativePayload (s.ensured user) := by
  rw [createUnchecked, Call.bind_apply]
  cases hf : ctx.faults .ensureCreditAccount with
  | some e => simp only [CallContext.statement, hf, Call.orFail, Call.throw]
  | none =>
    simp only [CallContext.statement, hf, Call.orFail, Call.modify]
    split <;> rfl

variable (now) in
/-- A fixture request that reaches its `INSERT` is `createFixture` on the store with the account. -/
theorem createBody_fixture (h : reachesInsert env ctx readings user input s) :
    createBody env ctx readings now user input s =
      createFixture env ctx now user input (rowKey env user input) readings.authoritativePayload (s.ensured user) := by
  obtain ⟨-, -, hconsent, hp, hacc, -⟩ := h
  rw [createBody_apply, hconsent]
  simp only []
  rw [createUnchecked_apply, hacc]
  simp only []
  rw [if_pos hp]

/-- The jobs are those from before the account was ensured, and so is the one of the key. -/
theorem ensured_boundJob (key : Option String) : (s.ensured user).boundJob key = s.boundJob key := by
  rw [Store.boundJob, Store.boundJob, (ensured_tables user s).1]

theorem ensured_hasArtifact : (s.ensured user).hasArtifact j = s.hasArtifact j := rfl

/-! ### Creations of live jobs -/

/-- The row of a live creation has the provider of the request. -/
theorem insertJob_provider {new : Job} {db db' : Db} {b : Bool} (h : insertJob new db = .ok (db', j, b)) :
    j.provider = new.provider := by
  unfold insertJob at h
  split at h
  · split at h
    · rename_i hsame
      cases h
      exact hsame.2.2.1
    · cases h
  · split at h <;> cases h
    rfl

theorem createLive_provider {key : Option String} {payload : Json}
    (h : createLive env ctx now user input key payload s = (.ok j, t)) : j.provider = input.provider := by
  obtain ⟨_, s₁, -, h⟩ := Call.bind_eq_ok.mp h
  obtain ⟨r, s₂, hins, h⟩ := Call.bind_eq_ok.mp h
  obtain ⟨_, s₃, -, h⟩ := Call.bind_eq_ok.mp h
  obtain ⟨-, hins⟩ := statement_eq_ok.mp hins
  cases h
  split at hins
  · cases hins
  · rename_i r' hr
    cases hins
    exact insertJob_provider (b := r'.2.2) hr

/-- **A creation that costs nothing throws before it writes.** -/
theorem createLive_error {key : Option String} {payload : Json} {e : GatewayError}
    (hcost : input.provider.costCredits = 0)
    (h : createLive env ctx now user input key payload s = (.error e, t)) : t = s := by
  rw [createLive] at h
  rcases Call.bind_eq_error.mp h with h | ⟨_, s₁, hquota, h⟩
  · rcases Call.orFail_eq_error.mp h with ⟨-, h⟩ | ⟨-, h⟩
    · exact h
    · exact (Prod.mk.inj h).2.symm
  · have hs₁ : s = s₁ := (Prod.mk.inj (statement_eq_ok.mp hquota).2).2
    rcases Call.bind_eq_error.mp h with h | ⟨r, s₂, -, h⟩
    · rcases Call.orFail_eq_error.mp h with ⟨-, h⟩ | ⟨-, h⟩
      · exact h.trans hs₁.symm
      · split at h
        · exact (Prod.mk.inj h).2.symm.trans hs₁.symm
        · cases h
    · rcases Call.bind_eq_error.mp h with h | ⟨_, s₃, -, h⟩
      · rw [debitNewJob, hcost, if_neg fun hc => absurd hc.2 (Nat.lt_irrefl 0)] at h
        cases h
      · cases h

/-! ### Which creations are atomic -/

/-- Outside a transaction only the kinds that refer to a model leave an artifact. -/
theorem plain_kinds (hp : input.provider = .fixture) (htx : input.transactional = false)
    (hphoto : refusePhotoscan input = .ok ()) :
    input.kind ≠ .photoscanSingle ∧ input.kind ≠ .photoscanMultiview ∧ input.kind ≠ .trainPolicy := by
  simp only [CreateJobInput.transactional, Bool.or_eq_false_iff, decide_eq_false_iff_not, not_not,
    Bool.and_eq_false_iff] at htx
  obtain ⟨⟨hcons, htrain⟩, -⟩ := htx
  have hnone : input.kind = .photoscanSingle ∨ input.kind = .photoscanMultiview →
      sourceBlobIdsFromPayload input.payload = [] := by
    rintro (hk | hk) <;> simpa [consentRequirements, hk] using hcons
  refine ⟨fun hk => ?_, fun hk => ?_, fun hk => htrain.elim (fun h => h hk) fun h => h hp⟩
  · simp [refusePhotoscan, hnone (.inl hk), hk] at hphoto
  · simp [refusePhotoscan, hnone (.inr hk), hk] at hphoto

/-- The new fixture job of a request outside a transaction: materialising it fails where its artifact row
is refused, and nowhere else. -/
theorem materialize_error_iff {u : Store} {e : GatewayError} (hp : input.provider = .fixture)
    (htx : input.transactional = false) (hphoto : refusePhotoscan input = .ok ())
    (hout : fixtureJobOutput env input.kind readings.authoritativePayload = .ok output)
    (h : materializeJobOutput env ctx user (fixtureJob env ctx readings now user input output) u = (.error e, t)) :
    input.kind.referring = true ∧ (ctx.faults .insertArtifact ≠ none ∨
      ∃ m, modelIdFrom readings.authoritativePayload = some m ∧ m ∉ u.modelIds) := by
  have hfix := fixtureJob_isFixture ctx now user hout
  obtain ⟨h₁, h₂, h₃⟩ := plain_kinds hp htx hphoto
  cases hr : input.kind.referring with
  | false =>
    rw [materialize_plain hfix hr h₁ h₂ h₃] at h
    cases h
  | true =>
    refine ⟨rfl, ?_⟩
    obtain ⟨write, he, -⟩ := materialize_referring env ctx hfix hr
    rw [he] at h
    rcases Call.orFail_eq_error.mp h with ⟨hf, -⟩ | ⟨-, h⟩
    · exact .inl (by rw [hf]; simp)
    · right
      split at h
      · rename_i e' hm
        unfold checkModel at hm
        split at hm
        · cases hm
        · rename_i hno
          cases hid : modelIdFrom readings.authoritativePayload with
          | none => exact absurd (by simp [fixtureJob, newFixtureJob, newQueuedJob, hid]) hno
          | some m =>
            exact ⟨m, rfl, by simpa [fixtureJob, newFixtureJob, newQueuedJob, hid] using hno⟩
      · cases h

/-- Outside a transaction a creation that throws has written nothing but the account, unless it is half made. -/
theorem createBody_error {e : GatewayError} (hr : readings.refusal = none) (hphoto : refusePhotoscan input = .ok ())
    (htx : input.transactional = false) (h : createBody env ctx readings now user input s = (.error e, t)) :
    SameContents s t ∨ halfMade env ctx readings user input s := by
  rw [createBody_apply] at h
  split at h
  · cases h
    exact .inl (.refl s)
  · rename_i _ hconsent
    rw [createUnchecked_apply] at h
    split at h
    · cases h
      exact .inl (.refl s)
    · rename_i hacc
      split at h
      · rename_i hp
        rcases createFixture_cases env ctx readings now user hp (s.ensured user) with
          ⟨e', he⟩ | ⟨j, output, -, -, -, -, hok⟩ | ⟨output, hout, hf, hb, hid⟩
        · rw [he] at h
          cases h
          exact .inl (ensured_same user s)
        · rw [hok] at h
          cases h
        · rw [createFixture_new hout hf hb hid, finishFixture, if_pos rfl] at h
          rcases Call.bind_eq_error.mp h with h | ⟨_, _, -, h⟩
          · obtain ⟨href, hrow⟩ := materialize_error_iff hp htx hphoto hout h
            rw [ensured_boundJob] at hb
            rw [(ensured_tables user s).1] at hid
            exact .inr ⟨⟨hr, hphoto, hconsent, hp, hacc, hf⟩, htx, href, ⟨output, hout⟩, hb, hid, hrow⟩
          · cases h
      · rename_i hp
        have hcost : input.provider.costCredits = 0 := by
          cases hprov : input.provider with
          | fixture => rfl
          | localWorker => rfl
          | modal => simp [CreateJobInput.transactional, hprov] at htx
        rw [createLive_error hcost h]
        exact .inl (ensured_same user s)

/-- A creation that returns a fixture job leaves its artifact, unless the job was there before. -/
theorem createBody_ok (hr : readings.refusal = none) (hphoto : refusePhotoscan input = .ok ())
    (h : createBody env ctx readings now user input s = (.ok j, t)) (hprov : j.provider = .fixture) :
    t.hasArtifact j = true ∨ (t.hasArtifact j = s.hasArtifact j ∧ reachesInsert env ctx readings user input s ∧
      (∃ output, fixtureJobOutput env input.kind readings.authoritativePayload = .ok output) ∧
      s.boundJob (rowKey env user input) = some j ∧ j.ownerUserId = user ∧ j.kind = input.kind ∧
      j.input.beq readings.authoritativePayload = true) := by
  rw [createBody_apply] at h
  split at h
  · cases h
  · rename_i _ hconsent
    rw [createUnchecked_apply] at h
    split at h
    · cases h
    · rename_i hacc
      split at h
      · rename_i hp
        rcases createFixture_cases env ctx readings now user hp (s.ensured user) with
          ⟨e', he⟩ | ⟨k, output, hout, hf, hb, hsame, hok⟩ | ⟨output, hout, hf, hb, hid⟩
        · rw [he] at h
          cases h
        · rw [hok] at h
          cases h
          rw [ensured_boundJob] at hb
          exact .inr ⟨ensured_hasArtifact, ⟨hr, hphoto, hconsent, hp, hacc, hf⟩, ⟨output, hout⟩, hb, hsame.1,
            hsame.2.1, hsame.2.2.2⟩
        · rw [createFixture_new hout hf hb hid, finishFixture, if_pos rfl] at h
          obtain ⟨persisted, u, hm, h⟩ := Call.bind_eq_ok.mp h
          cases h
          exact .inl (materialize_artifact (fixtureJob_isFixture ctx now user hout) hm)
      · rename_i hp
        exact absurd ((createLive_provider h).symm.trans hprov) hp

/-- A call that passes the first checks is its body, in a transaction or not. -/
theorem createJobCall_apply (hr : readings.refusal = none) (hphoto : refusePhotoscan input = .ok ()) :
    createJobCall env ctx readings now user input s =
      if input.transactional then
        Call.transaction (ctx.faults .commit) (createBody env ctx readings now user input) s
      else createBody env ctx readings now user input s := by
  unfold createJobCall
  rw [hr]
  simp only []
  rw [hphoto]
  split <;> rfl

variable (now) in
/-- A half-made job stays in the table. -/
theorem halfMade_throws (h : halfMade env ctx readings user input s) :
    ∃ e t, createJobCall env ctx readings now user input s = (.error e, t) ∧ t.jobs ≠ s.jobs := by
  obtain ⟨hreach, htx, href, ⟨output, hout⟩, hb, hid, hrow⟩ := h
  have hbody := createBody_fixture now hreach
  obtain ⟨hr, hphoto, -, -, -, hf⟩ := hreach
  rw [createFixture_new hout hf (by rw [ensured_boundJob]; exact hb) (by rw [(ensured_tables user s).1]; exact hid),
    finishFixture, if_pos rfl, Call.bind_apply] at hbody
  set new := fixtureJob env ctx readings now user input output with hnew
  have hjobs : ((s.ensured user).withJob new).jobs ≠ s.jobs := by
    show (s.ensured user).jobs ++ [new] ≠ s.jobs
    rw [(ensured_tables user s).1]
    intro heq
    simpa using congrArg List.length heq
  obtain ⟨write, he, -⟩ := materialize_referring env ctx (fixtureJob_isFixture ctx now user hout) href
  have hrefused : ∃ e, insertReferring ctx (modelIdFrom new.input) write ((s.ensured user).withJob new) =
      (.error e, (s.ensured user).withJob new) := by
    unfold insertReferring CallContext.statement
    cases hins : ctx.faults .insertArtifact with
    | some e => exact ⟨e, rfl⟩
    | none =>
      rcases hrow with hrow | ⟨m, hm, hmiss⟩
      · exact absurd hins hrow
      · have hcheck : checkModel (modelIdFrom new.input) ((s.ensured user).withJob new) =
            .error { message := "insert or update violates foreign key constraint", statusCode := 500 } := by
          have hid : modelIdFrom new.input = some m := hm
          have hmodels : m ∉ ((s.ensured user).withJob new).modelIds := hmiss
          rw [checkModel, hid, if_neg (by simpa using hmodels)]
        exact ⟨{ message := "insert or update violates foreign key constraint", statusCode := 500 },
          by simp only [Call.orFail, hcheck]⟩
  obtain ⟨e, he'⟩ := hrefused
  refine ⟨e, (s.ensured user).withJob new, ?_, hjobs⟩
  rw [createJobCall_apply hr hphoto, if_neg (by simp [htx]), hbody, he, he']

variable (now) in
/-- The replay of a bare job returns it. -/
theorem bareReplay_returns (h : bareReplay env ctx readings user input s) :
    ∃ j, createJobCall env ctx readings now user input s = (.ok j, s.ensured user) ∧ j.provider = .fixture ∧
      j.status = .succeeded ∧ s.hasArtifact j = false := by
  obtain ⟨hreach, hcommit, ⟨output, hout⟩, j, hb, hown, hkind, hprov, hinput, hstatus, hbare⟩ := h
  have hbody := createBody_fixture now hreach
  obtain ⟨hr, hphoto, -, hp, -, hf⟩ := hreach
  rw [createFixture_replay hout hf (by rw [ensured_boundJob]; exact hb) ⟨hown, hkind, hprov, hinput⟩ hp] at hbody
  refine ⟨j, ?_, hprov, hstatus, hbare⟩
  rw [createJobCall_apply hr hphoto]
  split
  · rename_i htx
    simp only [Call.transaction, hbody, hcommit htx]
  · exact hbody

/-- **A creation is atomic exactly when it is neither half made nor the replay of a bare job.** -/
theorem creationAtomic_iff (env : StoreEnv) (ctx : CallContext) (readings : Readings) (now : ℕ) (user : String)
    (input : CreateJobInput) (s : Store) : AtomicOn (createJobCall env ctx readings now user input) s ↔
      ¬ halfMade env ctx readings user input s ∧ ¬ bareReplay env ctx readings user input s := by
  constructor
  · rintro ⟨hthrow, hreturn⟩
    refine ⟨fun h => ?_, fun h => ?_⟩
    · obtain ⟨e, t, hcall, hjobs⟩ := halfMade_throws now h
      exact hjobs (hthrow e t hcall).jobs
    · obtain ⟨j, hcall, hprov, hstatus, hbare⟩ := bareReplay_returns now h
      have hart := hreturn j _ hcall hprov hstatus
      rw [ensured_hasArtifact, hbare] at hart
      cases hart
  · rintro ⟨hhalf, hbare⟩
    cases hr : readings.refusal with
    | some e =>
      have hcall : createJobCall env ctx readings now user input s = (.error e, s) := by
        unfold createJobCall
        rw [hr]
        rfl
      rw [AtomicOn, hcall]
      exact ⟨fun _ _ h => by cases h; exact .refl s, fun _ _ h => by cases h⟩
    | none =>
      cases hphoto : refusePhotoscan input with
      | error e =>
        have hcall : createJobCall env ctx readings now user input s = (.error e, s) := by
          unfold createJobCall
          rw [hr]
          simp only []
          rw [hphoto]
          rfl
        rw [AtomicOn, hcall]
        exact ⟨fun _ _ h => by cases h; exact .refl s, fun _ _ h => by cases h⟩
      | ok _ =>
        have hart : ∀ j t, createBody env ctx readings now user input s = (.ok j, t) → j.provider = .fixture →
            j.status = .succeeded → (input.transactional = true → ctx.faults .commit = none) →
            t.hasArtifact j = true := by
          intro j t h hprov hstatus hcommit
          rcases createBody_ok hr hphoto h hprov with hart | ⟨heq, hreach, hout, hb, hown, hkind, hinput⟩
          · exact hart
          · rw [heq]
            refine Bool.not_eq_false _ ▸ fun hno => hbare ?_
            exact ⟨hreach, hcommit, hout, j, hb, hown, hkind, hprov, hinput, hstatus, hno⟩
        rw [AtomicOn, createJobCall_apply hr hphoto]
        cases htx : input.transactional with
        | true =>
          rw [if_pos rfl]
          refine ⟨fun e t h => Call.transaction_error h ▸ .refl s, fun j t h hprov hstatus => ?_⟩
          obtain ⟨hcommit, hbody⟩ := Call.transaction_ok h
          exact hart j t hbody hprov hstatus fun _ => hcommit
        | false =>
          rw [if_neg (by simp)]
          refine ⟨fun e t h => ?_, fun j t h hprov hstatus => hart j t h hprov hstatus (by simp [htx])⟩
          exact (createBody_error hr hphoto htx h).resolve_right hhalf

end

/-! ### A telemetry job without its log -/

/-- The payload of an ingestion for a model that does not exist. -/
def missingModelPayload : Json := .object [("modelId", .string "00000000-0000-4000-8000-000000000000")]

theorem zero_fits : (-2 ^ 63 : ℤ) ≤ 0 ∧ (0 : ℤ) < 2 ^ 64 := by decide

/-- The fixture of an ingestion without samples. -/
def emptyTelemetry : List (String × Json) :=
  [("durationS", .number (.int 0 zero_fits)), ("frameCount", .number (.int 0 zero_fits)),
   ("tape", .object [("frames", .array []), ("header", .object [("contractHash", .null), ("lockfileHash", .null),
     ("seed", .number (.int 0 zero_fits))]), ("schemaVersion", .string "1.0.0")]),
   ("tapeHash", .string "telemetry:f1040c53bce46b61")]

def sampleStoreEnv : StoreEnv where
  toGatewayEnv := sampleEnv
  objectBucket := "forge"
  blobCacheKey user key := user ++ ":" ++ key
  artifactObjectKey user purpose key := user ++ "/" ++ purpose ++ "/" ++ key
  policyObjectKey user digest := user ++ "/policy/" ++ digest
  blobDigestKey user digest := user ++ ":" ++ digest
  policyBytes _ := .error { message := "policy ONNX bytes are malformed", statusCode := 502 }
  fixtureMembers _ _ := .ok emptyTelemetry

/-- A store without rows. -/
def Store.empty : Store where
  toDb := World.empty.db
  usageEvents := []
  modelIds := []
  objectBlobs := []
  photoscanArtifacts := []
  policyArtifacts := []
  telemetryLogs := []
  maintenanceRecords := []

/-- A call in which nothing fails from outside. -/
def quietContext (jobId : String) : CallContext where
  draws := { jobId, blobId := "blob-1", policyArtifactId := "policy-1" }
  writePolicyObject := none
  faults _ := none

/-- `user-1` ingests telemetry for the missing model, under a key. -/
def ingestMissing (jobId : String) : StoreCall Job :=
  createJobCall sampleStoreEnv (quietContext jobId)
    { sampleReadings with authoritativePayload := missingModelPayload } 0 "user-1"
    { kind := .bridgeTelemetryIngest, provider := .fixture, payload := missingModelPayload,
      idempotencyKey := some "k" }

/-- The ingestion throws and leaves its job; tried again, it returns that job as done, without a log. -/
theorem creation_leaves_bare_job : ¬ AtomicOn (ingestMissing "job-1") Store.empty ∧
    ¬ AtomicOn (ingestMissing "job-2") (ingestMissing "job-1" Store.empty).2 := by
  constructor
  · intro h
    have hthrow : ∃ e t, ingestMissing "job-1" Store.empty = (.error e, t) ∧ t.jobs.length = 1 :=
      ⟨_, _, rfl, by decide⟩
    obtain ⟨e, t, hcall, hjobs⟩ := hthrow
    rw [(h.1 e t hcall).jobs] at hjobs
    cases hjobs
  · intro h
    have hreturn : ∃ j t, ingestMissing "job-2" (ingestMissing "job-1" Store.empty).2 = (.ok j, t) ∧
        j.provider = .fixture ∧ j.status = .succeeded ∧ t.hasArtifact j = false := ⟨_, _, rfl, by decide⟩
    obtain ⟨j, t, hcall, hprov, hstatus, hbare⟩ := hreturn
    rw [h.2 j t hcall hprov hstatus] at hbare
    cases hbare

end Forge.Queue
