import Forge.Queue.Moves
import Mathlib.Data.List.Dedup

/-!
# Consent safety

A job that works on a user's photos or telemetry needs that user's consent for each
of them. `createJob` reads the subjects off the request and demands an active
grant; a later withdrawal looks for the jobs to stop with a containment query on
the stored payload, which the gateway has rewritten in between
(`authoritativePayload`).

The **key result** is `consentSafety`: in every reachable state each queued or
running job has an active grant as the latest event for every subject it names.
It rests on two agreements between the extraction rules: rewriting the payload
names no new subject (`requirements_authoritativePayload`), and whatever the
admission extracts the withdrawal query finds (`withdrawalHits_of_requirement`).
-/

namespace Forge.Queue

/-! ### The payload a job is stored with -/

/-- `ADMITTED_MODEL_JOB_KINDS` -/
def admittedModelJobKinds : List JobKind :=
  [.occtTessellate, .trainPolicy, .trainOfflineBc, .trainSysidFit, .codesignEvaluate, .bridgeConfigDiff]

/-- What the gateway reads of the admitted model of a request. -/
structure AdmittedModel where
  id : String
  contractHash : String
  contractJson : String

/-- What the gateway reads of the telemetry log of an offline training request. -/
structure TelemetryTape where
  tape : Json
  sha256 : String

/-- `ADMITTED_MODEL_SNAPSHOT_SCHEMA/ADMITTED_MODEL_SNAPSHOT_VERSION` -/
def admittedModelSnapshotSchema : String := "forge-admitted-model-snapshot/1.0.0"

/-- The model as a live worker gets it. -/
def AdmittedModel.snapshot (m : AdmittedModel) : Json :=
  .object [("contractHash", .string m.contractHash), ("contractJson", .string m.contractJson),
    ("modelId", .string m.id), ("schemaVersion", .string admittedModelSnapshotSchema)]

/-- `{ ...payload, [key]: value }` for each entry; what is no object counts as empty. -/
def spread (payload : Json) (entries : List (String × Json)) : Json :=
  .object (entries.foldl (fun ms e => Assoc.insert e.1 e.2 ms) (payload.asObject.getD []))

/-- `payload ?? {}` -/
def orEmpty : Json → Json
  | .null => .object []
  | payload => payload

/-- The payload with the model bound to it. -/
def modelPayload (kind : JobKind) (provider : Provider) (model : Option AdmittedModel) (payload : Json) : Json :=
  match model with
  | some m =>
    if kind ∈ admittedModelJobKinds then
      spread payload (("contractHash", .string m.contractHash) ::
        if provider = .fixture then [] else [("modelSnapshot", m.snapshot)])
    else orEmpty payload
  | none => orEmpty payload

/-- The payload with the telemetry bound to it; without a log id the request is refused. -/
def offlinePayload (telemetry : TelemetryTape) (payload : Json) : Json :=
  match telemetryLogIdsFromPayload payload with
  | [] => payload
  | id :: _ =>
    spread payload [("telemetryLogId", .string id), ("telemetryLogIds", .array [.string id]),
      ("telemetryLogSha256", .string telemetry.sha256), ("tape", telemetry.tape)]

/-- `authoritativePayload`: what `createJobUnchecked` stores as the job's input. -/
def authoritativePayload (kind : JobKind) (provider : Provider) (model : Option AdmittedModel)
    (telemetry : TelemetryTape) (payload : Json) : Json :=
  if kind = .trainOfflineBc then offlinePayload telemetry (modelPayload kind provider model payload)
  else modelPayload kind provider model payload

/-- The request's payload is stored as the gateway computes it. -/
def ComputesPayload : Op → Prop
  | .createJob readings _ _ input => ∃ model telemetry,
      readings.authoritativePayload = authoritativePayload input.kind input.provider model telemetry input.payload
  | _ => True

/-- Every queued or running job has an active grant as the latest event for each subject it names. -/
def ConsentSafe (env : GatewayEnv) (db : Db) : Prop :=
  ∀ j ∈ db.jobs, j.live → ∀ r ∈ consentRequirements j.kind j.input,
    ∃ e, latestConsent db j.ownerUserId r.1 r.1.subjectKind r.2 = some e ∧ e.active env = true

/-! ### The extraction rules agree -/

theorem mem_stringsOf {key s : String} {payload : Json} :
    s ∈ stringsOf key payload ↔ s ≠ "" ∧ ∃ xs, payload.member key = some (.array xs) ∧ .string s ∈ xs := by
  have hstr : ∀ x : Json, (x.asStr.filter fun t => t ≠ "") = some s ↔ x = .string s ∧ s ≠ "" := by
    intro x
    cases x <;> simp [Json.asStr]
  rw [stringsOf, List.mem_dedup, List.mem_filterMap]
  simp only [hstr]
  constructor
  · rintro ⟨x, hx, rfl, hs⟩
    refine ⟨hs, ?_⟩
    cases hm : payload.member key with
    | none => simp [hm] at hx
    | some v =>
      rw [hm] at hx
      cases v with
      | array xs => exact ⟨xs, rfl, by simpa [Json.asArray] using hx⟩
      | _ => simp [Json.asArray] at hx
  · rintro ⟨hs, xs, hm, hx⟩
    exact ⟨.string s, by simpa [hm, Json.asArray] using hx, rfl, hs⟩

theorem mem_telemetryLogIds {s : String} {payload : Json} :
    s ∈ telemetryLogIdsFromPayload payload ↔
      s ∈ stringsOf "telemetryLogIds" payload ∨ (s ≠ "" ∧ payload.member "telemetryLogId" = some (.string s)) := by
  rw [telemetryLogIdsFromPayload, List.mem_dedup, List.mem_append, Option.mem_toList,
    Option.filter_eq_some_iff, Option.bind_eq_some_iff]
  refine or_congr_right ⟨?_, ?_⟩
  · rintro ⟨⟨v, hv, hs⟩, hne⟩
    refine ⟨by simpa using hne, ?_⟩
    cases v <;> simp [Json.asStr] at hs
    rw [hv, hs]
  · rintro ⟨hne, hv⟩
    exact ⟨⟨_, hv, rfl⟩, by simpa using hne⟩

/-- What the admission extracts the withdrawal query finds. -/
theorem withdrawalHits_of_requirement {j : Job} (hlive : j.live) {p : ConsentPurpose} {s : String}
    (h : (p, s) ∈ consentRequirements j.kind j.input) : withdrawalHits j.ownerUserId p s j = true := by
  have contains : ∀ {key : String}, s ∈ stringsOf key j.input → containsString (j.input.member key) s = true := by
    intro key hs
    obtain ⟨-, xs, hm, hx⟩ := mem_stringsOf.mp hs
    rw [hm]
    exact List.any_eq_true.mpr ⟨_, hx, by simp [Json.asStr]⟩
  have hstatus : (decide (j.status = .queued) || decide (j.status = .running)) = true := by
    simpa [Job.live] using hlive
  have photo : s ∈ sourceBlobIdsFromPayload j.input →
      containsString (j.input.member "sourceBlobIds") s = true := contains
  have training : s ∈ telemetryLogIdsFromPayload j.input →
      (containsString (j.input.member "telemetryLogIds") s = true ∨
        (j.input.member "telemetryLogId").bind Json.asStr = some s) := by
    intro hs
    rcases mem_telemetryLogIds.mp hs with hs | ⟨-, hs⟩
    · exact Or.inl (contains hs)
    · exact Or.inr (by rw [hs]; rfl)
  unfold consentRequirements at h
  split at h
  case h_5 => cases h
  all_goals
    rename_i hkind
    obtain ⟨t, ht, heq⟩ := List.mem_map.mp h
    obtain ⟨rfl, rfl⟩ := Prod.mk.inj heq
    simp only [withdrawalHits, hstatus, hkind, Bool.and_eq_true, Bool.or_eq_true, decide_eq_true_eq]
  · exact ⟨by simp, by simp, photo ht⟩
  · exact ⟨by simp, by simp, photo ht⟩
  · exact ⟨by simp, by simp, training ht⟩
  · exact ⟨by simp, by simp, training ht⟩

/-- A key that is not written is read as before. -/
theorem member_spread {key : String} {payload : Json} {entries : List (String × Json)}
    (h : ∀ e ∈ entries, key ≠ e.1) : (spread payload entries).member key = payload.member key := by
  have hget : ∀ (ms : List (String × Json)),
      Assoc.get key (entries.foldl (fun ms e => Assoc.insert e.1 e.2 ms) ms) = Assoc.get key ms := by
    induction entries with
    | nil => exact fun _ => rfl
    | cons e es ih =>
      intro ms
      rw [List.foldl_cons, ih fun e' he' => h e' (List.mem_cons_of_mem _ he'),
        Assoc.get_insert_of_ne (h e List.mem_cons_self)]
  rw [spread, Json.member, hget]
  cases payload <;> rfl

theorem member_orEmpty (key : String) (payload : Json) : (orEmpty payload).member key = payload.member key := by
  cases payload <;> rfl

/-- Binding the model touches two members only. -/
theorem member_modelPayload {kind : JobKind} {provider : Provider} {model : Option AdmittedModel} {payload : Json}
    {key : String} (h : key ≠ "contractHash" ∧ key ≠ "modelSnapshot") :
    (modelPayload kind provider model payload).member key = payload.member key := by
  unfold modelPayload
  split
  · split_ifs
    · exact member_spread (by simpa using h.1)
    · exact member_spread (by simpa using h)
    · exact member_orEmpty key payload
  · exact member_orEmpty key payload

theorem stringsOf_modelPayload {kind : JobKind} {provider : Provider} {model : Option AdmittedModel} {payload : Json}
    {key : String} (h : key ≠ "contractHash" ∧ key ≠ "modelSnapshot") :
    stringsOf key (modelPayload kind provider model payload) = stringsOf key payload := by
  rw [stringsOf, stringsOf, member_modelPayload h]

theorem telemetryLogIds_modelPayload (kind : JobKind) (provider : Provider) (model : Option AdmittedModel)
    (payload : Json) :
    telemetryLogIdsFromPayload (modelPayload kind provider model payload) = telemetryLogIdsFromPayload payload := by
  rw [telemetryLogIdsFromPayload, telemetryLogIdsFromPayload, stringsOf_modelPayload (by decide),
    member_modelPayload (by decide)]

/-- Binding the telemetry names the log that was named first, and no other. -/
theorem mem_telemetryLogIds_offlinePayload {telemetry : TelemetryTape} {payload : Json} {s : String}
    (h : s ∈ telemetryLogIdsFromPayload (offlinePayload telemetry payload)) : s ∈ telemetryLogIdsFromPayload payload := by
  unfold offlinePayload at h
  split at h
  · exact h
  · rename_i id rest hids
    have hid : id ∈ telemetryLogIdsFromPayload payload := hids ▸ List.mem_cons_self
    have hone : (spread payload [("telemetryLogId", .string id), ("telemetryLogIds", .array [.string id]),
        ("telemetryLogSha256", .string telemetry.sha256), ("tape", telemetry.tape)]).member "telemetryLogId" =
        some (.string id) := by
      simp [spread, Json.member, Assoc.get_insert]
    have hmany : (spread payload [("telemetryLogId", .string id), ("telemetryLogIds", .array [.string id]),
        ("telemetryLogSha256", .string telemetry.sha256), ("tape", telemetry.tape)]).member "telemetryLogIds" =
        some (.array [.string id]) := by
      simp [spread, Json.member, Assoc.get_insert]
    rcases mem_telemetryLogIds.mp h with h | ⟨-, h⟩
    · obtain ⟨-, xs, hm, hx⟩ := mem_stringsOf.mp h
      rw [hmany] at hm
      simp only [Option.some.injEq, Json.array.injEq] at hm
      subst hm
      simp only [List.mem_singleton, Json.string.injEq] at hx
      rwa [hx]
    · rw [hone] at h
      simp only [Option.some.injEq, Json.string.injEq] at h
      rwa [← h]

/-- The stored payload names no subject that the request did not name. -/
theorem requirements_authoritativePayload {kind : JobKind} {provider : Provider} {model : Option AdmittedModel}
    {telemetry : TelemetryTape} {payload : Json} {r : ConsentPurpose × String}
    (h : r ∈ consentRequirements kind (authoritativePayload kind provider model telemetry payload)) :
    r ∈ consentRequirements kind payload := by
  have photos : sourceBlobIdsFromPayload (modelPayload kind provider model payload) = sourceBlobIdsFromPayload payload :=
    stringsOf_modelPayload (by decide)
  have logs := telemetryLogIds_modelPayload kind provider model payload
  unfold authoritativePayload at h
  cases kind with
  | photoscanSingle => simpa [consentRequirements, photos] using h
  | photoscanMultiview => simpa [consentRequirements, photos] using h
  | trainPolicy => simpa [consentRequirements, logs] using h
  | trainOfflineBc =>
    rw [if_pos rfl] at h
    obtain ⟨s, hs, rfl⟩ := List.mem_map.mp h
    have hs := mem_telemetryLogIds_offlinePayload hs
    rw [logs] at hs
    exact List.mem_map_of_mem hs
  | _ => cases h

/-! ### The transactions -/

theorem assertActiveConsent_eq_ok {env : GatewayEnv} {r : Readings} {db : Db} {user : String} {p : ConsentPurpose}
    {s : String} (h : assertActiveConsent env r db user p s = .ok ()) :
    ∃ e, latestConsent db user p p.subjectKind s = some e ∧ e.active env = true := by
  unfold assertActiveConsent at h
  split at h
  · cases h
  · split at h
    · cases h
    · rename_i e he
      split_ifs at h with hactive
      exact ⟨e, he, hactive⟩

theorem latestConsent_congr {db db' : Db} (h : db'.consentEvents = db.consentEvents) (user : String)
    (p : ConsentPurpose) (k : ConsentSubjectKind) (s : String) :
    latestConsent db' user p k s = latestConsent db user p k s := by
  rw [latestConsent, latestConsent, h]

/-- The event of a request is the latest about its subject and changes no other. -/
theorem latestConsent_append {db db' : Db} {e : ConsentEvent} (h : db'.consentEvents = db.consentEvents ++ [e])
    (user : String) (p : ConsentPurpose) (k : ConsentSubjectKind) (s : String) :
    latestConsent db' user p k s =
      if e.ownerUserId = user ∧ e.purpose = p ∧ e.subjectKind = k ∧ e.subjectId = s then some e
      else latestConsent db user p k s := by
  rw [latestConsent, h, List.filter_append]
  split_ifs with hm
  · obtain ⟨rfl, rfl, rfl, rfl⟩ := hm
    simp
  · have hnil : ([e].filter fun e => decide (e.ownerUserId = user) && decide (e.purpose = p) &&
        decide (e.subjectKind = k) && decide (e.subjectId = s)) = [] := by
      simpa [and_assoc] using hm
    rw [hnil, List.append_nil]
    rfl

/-- What a consent request appends, and whom it stops. -/
theorem recordConsent_events {env : GatewayEnv} {r : Readings} {now : ℕ} {user : String} {input : ConsentInput}
    {db db' : Db} {e : ConsentEvent} (h : recordConsent env r now user input db = .ok (db', e)) :
    db' = db ∨
      (consentRefusal env r input = none ∧ db'.consentEvents = db.consentEvents ++ [input.event user] ∧
        (input.action = .grant ∧ db'.jobs = db.jobs ∨
          input.action = .withdraw ∧
            db'.jobs = Table.update (withdrawalHits user input.purpose input.subjectId)
              (Job.withdraw now input.purpose) db.jobs)) := by
  unfold recordConsent at h
  split at h
  · cases h
  · rename_i href
    split at h
    · split_ifs at h
      exact Or.inl (Prod.mk.inj (Except.ok.inj h)).1.symm
    · dsimp only at h
      split at h
      · rename_i hact
        obtain ⟨rfl, -⟩ := Prod.mk.inj (Except.ok.inj h)
        exact Or.inr ⟨href, rfl, Or.inr ⟨hact, rfl⟩⟩
      · rename_i hact
        obtain ⟨rfl, -⟩ := Prod.mk.inj (Except.ok.inj h)
        exact Or.inr ⟨href, rfl, Or.inl ⟨hact, rfl⟩⟩

/-- A request that is not refused is about the current policy and its own kind of subject. -/
theorem consentRefusal_eq_none {env : GatewayEnv} {r : Readings} {input : ConsentInput}
    (h : consentRefusal env r input = none) :
    input.policyVersion = consentPolicyVersion ∧ input.noticeHash = env.noticeHash input.purpose ∧
      input.subjectKind = input.purpose.subjectKind := by
  unfold consentRefusal at h
  split_ifs at h with h1 h2
  push Not at h1 h2
  exact ⟨h1.1, h1.2, h2⟩

theorem CreateOutcome.consentEvents {env : GatewayEnv} {r : Readings} {now : ℕ} {user id : String}
    {input : CreateJobInput} {db db' : Db} {job : Job} {flag : Bool}
    (h : CreateOutcome env r now user id input db db' job flag) : db'.consentEvents = db.consentEvents := by
  have hopen : (ensureCreditAccount user db).consentEvents = db.consentEvents := by
    unfold ensureCreditAccount
    split_ifs <;> rfl
  cases h with
  | replay => exact hopen
  | fixture => exact hopen
  | live =>
    split_ifs
    · unfold postCredit
      split_ifs <;> exact hopen
    · exact hopen

/-- Only consent requests append consent events. -/
theorem exec_consentEvents (env : GatewayEnv) (w : World) (op : Op)
    (hop : ∀ r user input, op ≠ .recordConsent r user input) :
    (exec env w op).db.consentEvents = w.db.consentEvents := by
  have hworker := exec_gatewayTables env w op
  cases op with
  | recordConsent r user input => exact absurd rfl (hop r user input)
  | createJob r user id input =>
    rw [exec]
    split
    · rfl
    · rename_i hc
      exact (createJob_outcome hc).2.consentEvents
  | cancelOwnedJob user id =>
    rw [exec]
    split
    · rfl
    · rename_i db row hc
      unfold cancelOwnedJob at hc
      split at hc
      · cases hc
      · split_ifs at hc
        · obtain ⟨rfl, -⟩ := Prod.mk.inj (Except.ok.inj hc)
          rfl
        · obtain ⟨rfl, -⟩ := Prod.mk.inj (Except.ok.inj hc)
          unfold refundCancelled postCredit
          split_ifs <;> rfl
  | _ => exact (Prod.mk.inj (Prod.mk.inj (hworker rfl)).2).2

/-- Consents that stay as they are keep every row that was live before safe. -/
theorem ConsentSafe.rowsMove {env : GatewayEnv} {w : World} {op : Op} {db db' : Db} (h : ConsentSafe env db)
    (hm : RowsMove env w op db.jobs db'.jobs) (hc : db'.consentEvents = db.consentEvents) : ConsentSafe env db' := by
  intro j' hj' hlive r hr
  obtain ⟨j, hj, hmv⟩ := hm.origin hj'
  rw [latestConsent_congr hc, hmv.sameRequest.ownerUserId]
  rw [hmv.sameRequest.kind, hmv.sameRequest.input] at hr
  exact h j hj (hmv.live_of_live hlive) r hr

/-- A created job names only subjects whose grant was found active. -/
theorem ConsentSafe.create {env : GatewayEnv} {db db' : Db} (h : ConsentSafe env db) {r : Readings} {now : ℕ}
    {user id : String} {input : CreateJobInput} {job : Job} {flag : Bool}
    (hc : createJob env r now user id input db = .ok (db', job, flag))
    (hpayload : ∃ model telemetry,
      r.authoritativePayload = authoritativePayload input.kind input.provider model telemetry input.payload) :
    ConsentSafe env db' := by
  obtain ⟨hconsents, hout⟩ := createJob_outcome hc
  obtain ⟨model, telemetry, hpayload⟩ := hpayload
  intro j hj hlive q hq
  rw [latestConsent_congr hout.consentEvents]
  rcases hout.origin hj with hj | ⟨howner, hkind, hinput, -⟩
  · exact h j hj hlive q hq
  · rw [hkind, hinput, hpayload] at hq
    rw [howner]
    exact assertActiveConsent_eq_ok (forM_eq_ok.mp hconsents q (requirements_authoritativePayload hq))

/-- A grant is active, and a withdrawal stops every job that names its subject. -/
theorem ConsentSafe.consent {env : GatewayEnv} {db db' : Db} (h : ConsentSafe env db) {r : Readings} {now : ℕ}
    {user : String} {input : ConsentInput} {e : ConsentEvent}
    (hc : recordConsent env r now user input db = .ok (db', e)) : ConsentSafe env db' := by
  rcases recordConsent_events hc with rfl | ⟨href, hevents, hrows⟩
  · exact h
  obtain ⟨hversion, hnotice, hkind⟩ := consentRefusal_eq_none href
  rcases hrows with ⟨hact, hjobs⟩ | ⟨hact, hjobs⟩
  · intro j hj hlive q hq
    rw [latestConsent_append hevents]
    split_ifs
    · exact ⟨_, rfl, by simp [ConsentEvent.active, ConsentInput.event, hact, hversion, hnotice]⟩
    · exact h j (hjobs ▸ hj) hlive q hq
  · intro j' hj' hlive q hq
    rw [hjobs] at hj'
    obtain ⟨j, hj, rfl⟩ := Table.mem_update.mp hj'
    by_cases hhit : withdrawalHits user input.purpose input.subjectId j = true
    · rw [if_pos hhit] at hlive
      rcases hlive with hl | hl <;> cases hl
    · rw [if_neg hhit] at hlive hq ⊢
      rw [latestConsent_append hevents, if_neg]
      · exact h j hj hlive q hq
      · rintro ⟨howner, hpurpose, -, hid⟩
        have howner : user = j.ownerUserId := howner
        have hpurpose : input.purpose = q.1 := hpurpose
        have hid : input.subjectId = q.2 := hid
        refine hhit ?_
        rw [howner, hpurpose, hid]
        exact withdrawalHits_of_requirement hlive hq

/-- **Step lemma**: every transaction keeps consent safety. -/
theorem exec_consentSafe (env : GatewayEnv) (w : World) (op : Op) (hq : QueueInv w) (h : ConsentSafe env w.db)
    (hpayload : ComputesPayload op) : ConsentSafe env (exec env w op).db := by
  by_cases hcreate : ∃ r user id input, op = .createJob r user id input
  · obtain ⟨r, user, id, input, rfl⟩ := hcreate
    rw [exec]
    split
    · exact h
    · rename_i hc
      exact h.create hc hpayload
  · by_cases hconsent : ∃ r user input, op = .recordConsent r user input
    · obtain ⟨r, user, input, rfl⟩ := hconsent
      rw [exec]
      split
      · exact h
      · rename_i hc
        exact h.consent hc
    · push Not at hcreate hconsent
      exact h.rowsMove (exec_moves env w op hq.jobs.ids hcreate) (exec_consentEvents env w op hconsent)

/-- **Consent safety**: in every reachable state each queued or running job has an active grant as
the latest consent event of its owner for every photo or telemetry log its input names. -/
theorem consentSafety (env : GatewayEnv) (w : World) (hw : (system env).Reach (fun _ op => ComputesPayload op) w) :
    ConsentSafe env w.db := by
  have hinv : QueueInv w ∧ ConsentSafe env w.db := by
    refine System.Reach.invariant (I := fun v => QueueInv v ∧ ConsentSafe env v.db)
      ⟨inv_empty, by simp [ConsentSafe, system, World.empty, Db.empty]⟩ ?_ hw
    rintro s op s' ⟨hq, h⟩ hok ⟨hadm, rfl⟩
    exact ⟨exec_inv env s op hq hadm, exec_consentSafe env s op hq h hok⟩
  exact hinv.2

/-- Runs under a condition on the transactions alone. -/
theorem steps_run_of_forall {env : GatewayEnv} {ok : Op → Prop} {w : World} {ops : List Op}
    (hadm : admissibleRun env (fun _ _ => True) w ops = true) (hok : ∀ op ∈ ops, ok op) :
    (system env).Steps (fun _ op => ok op) w (run env w ops) := by
  induction ops generalizing w with
  | nil => exact .refl
  | cons op ops ih =>
    rw [admissibleRun, Bool.and_eq_true, decide_eq_true_eq] at hadm
    have hstep : (system env).step w op (exec env w op) := ⟨hadm.1.1, rfl⟩
    exact (System.Steps.refl.tail (hok op List.mem_cons_self) hstep).trans
      (ih hadm.2 fun op' h => hok op' (List.mem_cons_of_mem _ h))

/-- The claimed photoscan job has the grant for its photo, which it names. -/
theorem consentSafety_photoscan :
    ConsentSafe sampleEnv (run sampleEnv .empty photoscanClaimed).db ∧
      (run sampleEnv .empty photoscanClaimed).db.jobs.map (fun j => (j.status, consentRequirements j.kind j.input)) =
        [(.running, [(.photoscanProcessing, "blob-1")])] := by
  refine ⟨consentSafety sampleEnv _ (steps_run_of_forall (by decide) fun op hop => ?_), by decide⟩
  simp only [photoscanClaimed, List.mem_cons, List.not_mem_nil, or_false] at hop
  rcases hop with rfl | rfl | rfl
  · trivial
  · exact ⟨none, ⟨.null, ""⟩, rfl⟩
  · trivial

end Forge.Queue
