import Forge.Queue.Attempts

/-!
# What a transaction does to a row

`Move` lists, once for all transactions, every change that a transaction makes to
an existing row of `jobs`, with the guard under which it is made. A transaction
changes each row by a sequence of such changes (`exec_moves`) and `createJob` adds
at most one row, which `createJob_cases` describes. What holds of the rows in all
reachable states is then proved by cases on the changes.
-/

namespace Forge.Queue

/-- Queued or running. -/
def Job.live (j : Job) : Prop := j.status = .queued ∨ j.status = .running

instance (j : Job) : Decidable j.live := inferInstanceAs (Decidable (_ ∨ _))

/-- The columns that are set when the row is inserted and never again. -/
structure SameRequest (j j' : Job) : Prop where
  id : j'.id = j.id
  ownerUserId : j'.ownerUserId = j.ownerUserId
  kind : j'.kind = j.kind
  provider : j'.provider = j.provider
  input : j'.input = j.input
  costCredits : j'.costCredits = j.costCredits

theorem SameRequest.refl (j : Job) : SameRequest j j := ⟨rfl, rfl, rfl, rfl, rfl, rfl⟩

theorem SameRequest.trans {j k l : Job} (h : SameRequest j k) (h' : SameRequest k l) : SameRequest j l :=
  ⟨h'.id.trans h.id, h'.ownerUserId.trans h.ownerUserId, h'.kind.trans h.kind, h'.provider.trans h.provider,
    h'.input.trans h.input, h'.costCredits.trans h.costCredits⟩

/-- One change of a row by a transaction. -/
inductive Move (env : GatewayEnv) (w : World) : Op → Job → Job → Prop where
  /-- The worker died on the last attempt. -/
  | failExhausted {tasks : List JobKind} {pick : Option String} {token attemptId : String} {j : Job}
      (hrun : j.status = .running) : Move env w (.claimOne tasks pick token attemptId) j (j.failExhausted w.now)
  | startAttempt {tasks : List JobKind} {pick : Option String} {token attemptId : String} {j : Job}
      (hlive : j.live) : Move env w (.claimOne tasks pick token attemptId) j (j.startAttempt w.now token)
  | succeed {c : ClaimedJob} {o : Json} {final : Option Json} {j : Job} (hrun : j.status = .running) :
      Move env w (.commitSucceeded c o final) j (j.succeed w.now o)
  /-- The output is replaced by the materialised one. -/
  | persist {op : Op} {j : Job} (o : Option Json) (hdone : j.status = .succeeded) : Move env w op j { j with output := o }
  | fail {c : ClaimedJob} {error code : String} {j : Job} (hrun : j.status = .running) :
      Move env w (.markFailed c error code) j (j.fail w.now error code)
  | retry {c : ClaimedJob} {callId : Option String} {error code : String} {after : Option ℕ} {j : Job}
      (hrun : j.status = .running) :
      Move env w (.markRetryable c callId error code after) j (j.retry w.now (retryDelay c.attempts after) error code)
  | recordCall {c : ClaimedJob} {callId : String} {ev : CallEvidence} {j : Job} (hrun : j.status = .running) :
      Move env w (.recordProviderCall c callId ev) j
        { j with providerCallId := some callId, providerFunctionVersion := some ev.functionVersion,
                 providerEnvironment := some ev.environment,
                 providerDeploymentContractHash := some ev.deploymentContractHash,
                 providerSubmittedAt := some ev.submittedAt, providerCompletedAt := none, providerCancelledAt := none }
  | recordCancelled {jobId callId : String} {j : Job} : Move env w (.recordProviderCancelled jobId callId) j
        { j with providerCancelledAt := j.providerCancelledAt.or (some w.now) }
  | cancel {user jobId : String} {j : Job} (hlive : j.live) (howner : j.ownerUserId = user) (hid : j.id = jobId) :
      Move env w (.cancelOwnedJob user jobId) j (j.cancel w.now)
  | withdraw {readings : Readings} {user : String} {input : ConsentInput} {j : Job}
      (hw : withdraws env readings user input w.db = true)
      (hhit : withdrawalHits user input.purpose input.subjectId j = true) :
      Move env w (.recordConsent readings user input) j (j.withdraw w.now input.purpose)

/-- What a whole transaction does to a row. -/
abbrev Moves (env : GatewayEnv) (w : World) (op : Op) : Job → Job → Prop := Relation.ReflTransGen (Move env w op)

/-- The rows change one by one. -/
def RowsMove (env : GatewayEnv) (w : World) (op : Op) (t t' : List Job) : Prop :=
  ∃ f : Job → Job, t' = t.map f ∧ ∀ j ∈ t, Moves env w op j (f j)

section
variable {env : GatewayEnv} {w : World} {op : Op}

theorem Move.sameRequest {j j' : Job} (h : Move env w op j j') : SameRequest j j' := by
  cases h with
  | retry hrun =>
    rw [Job.retry]
    split_ifs <;> exact ⟨rfl, rfl, rfl, rfl, rfl, rfl⟩
  | _ => exact ⟨rfl, rfl, rfl, rfl, rfl, rfl⟩

theorem Moves.sameRequest {j j' : Job} (h : Moves env w op j j') : SameRequest j j' := by
  induction h with
  | refl => exact .refl j
  | tail _ hm ih => exact ih.trans hm.sameRequest

theorem withdrawalHits_live {user : String} {p : ConsentPurpose} {s : String} {j : Job}
    (h : withdrawalHits user p s j = true) : j.live := by
  simp only [withdrawalHits, Bool.and_eq_true, Bool.or_eq_true, decide_eq_true_eq] at h
  exact h.1.2

/-- No change revives a finished row. -/
theorem Move.live_of_live {j j' : Job} (h : Move env w op j j') (hl : j'.live) : j.live := by
  cases h with
  | retry hrun => exact Or.inr hrun
  | failExhausted hrun => exact Or.inr hrun
  | startAttempt hlive => exact hlive
  | succeed hrun => exact Or.inr hrun
  | persist o hdone => exact hl
  | fail hrun => exact Or.inr hrun
  | recordCall hrun => exact Or.inr hrun
  | recordCancelled => exact hl
  | cancel hlive => exact hlive
  | withdraw _ hhit => exact withdrawalHits_live hhit

theorem Moves.live_of_live {j j' : Job} (h : Moves env w op j j') (hl : j'.live) : j.live := by
  induction h with
  | refl => exact hl
  | tail _ hm ih => exact ih (hm.live_of_live hl)

/-! ### Rows under updates -/

theorem RowsMove.refl (t : List Job) : RowsMove env w op t t := ⟨id, by simp, fun _ _ => .refl⟩

theorem RowsMove.trans {t u v : List Job} (h : RowsMove env w op t u) (h' : RowsMove env w op u v) :
    RowsMove env w op t v := by
  obtain ⟨f, rfl, hf⟩ := h
  obtain ⟨g, rfl, hg⟩ := h'
  refine ⟨g ∘ f, by simp, fun j hj => ?_⟩
  exact (hf j hj).trans (hg (f j) (List.mem_map_of_mem hj))

theorem rowsMove_update {p : Job → Bool} {f : Job → Job} {t : List Job}
    (h : ∀ j ∈ t, p j = true → Move env w op j (f j)) : RowsMove env w op t (Table.update p f t) := by
  refine ⟨fun j => if p j then f j else j, rfl, fun j hj => ?_⟩
  by_cases hp : p j = true
  · simpa [hp] using Relation.ReflTransGen.single (h j hj hp)
  · simpa [hp] using Relation.ReflTransGen.refl

/-- Where a row of the new table comes from. -/
theorem RowsMove.origin {t t' : List Job} (h : RowsMove env w op t t') {j' : Job} (hj : j' ∈ t') :
    ∃ j ∈ t, Moves env w op j j' := by
  obtain ⟨f, rfl, hf⟩ := h
  obtain ⟨j, hm, rfl⟩ := List.mem_map.mp hj
  exact ⟨j, hm, hf j hm⟩

/-- What becomes of a row of the old table. -/
theorem RowsMove.image {t t' : List Job} (h : RowsMove env w op t t') {j : Job} (hj : j ∈ t) :
    ∃ j' ∈ t', Moves env w op j j' := by
  obtain ⟨f, rfl, hf⟩ := h
  exact ⟨f j, List.mem_map_of_mem hj, hf j hj⟩

end

/-! ### The transactions -/

/-- Every transaction but `createJob` changes the rows by the listed changes and adds none. -/
theorem exec_moves (env : GatewayEnv) (w : World) (op : Op) (hids : (w.db.jobs.map Job.id).Nodup)
    (hop : ∀ r user id input, op ≠ .createJob r user id input) :
    RowsMove env w op w.db.jobs (exec env w op).db.jobs := by
  cases op with
  | tick => exact .refl _
  | createJob r user id input => exact absurd rfl (hop r user id input)
  | materializeFixture id persisted =>
    rw [exec]
    split_ifs
    · refine rowsMove_update fun j _ hp => ?_
      simp only [Bool.and_eq_true, decide_eq_true_eq] at hp
      exact .persist persisted hp.2
    · exact .refl _
  | claimOne tasks pick token attemptId =>
    rw [exec]
    cases hcl : claimOne w.now tasks pick token attemptId w.db with
    | mk db c =>
      have hswept : RowsMove env w (.claimOne tasks pick token attemptId) w.db.jobs (exhaust w.now tasks w.db).jobs :=
        rowsMove_update fun j _ hp => by
          simp only [exhausted, Bool.and_eq_true, decide_eq_true_eq] at hp
          exact .failExhausted hp.1.1.1
      rcases claimOne_eq hcl with ⟨rfl, rfl | rfl⟩ | ⟨prior, hp, hcan, htake, rfl⟩
      · exact .refl _
      · exact hswept
      · refine hswept.trans ?_
        rw [show db.jobs = _ from takeClaim_jobs htake]
        refine rowsMove_update fun j hj hid => .startAttempt ?_
        -- the id singles out the row that was found claimable
        have hids' := (exhaust_jobsStep w.now tasks w.db).ids hids
        obtain rfl := List.inj_on_of_nodup_map hids' hj hp (by simpa using hid)
        simp only [claimable, Bool.and_eq_true, Bool.or_eq_true, decide_eq_true_eq] at hcan
        exact hcan.2.imp (fun h => h.1) fun h => h.1
  | readAuthority c =>
    rw [exec]
    split_ifs <;> exact .refl _
  | commitSucceeded c o final =>
    rw [exec]
    split_ifs
    · split
      · rename_i db hcs
        obtain ⟨-, hjobs, -⟩ := commitSucceeded_eq_true hcs
        rw [show db.jobs = _ from hjobs]
        refine (rowsMove_update fun j _ hp => .succeed (holdsLease_iff.mp hp).2.1).trans
          (rowsMove_update fun j _ hp => ?_)
        simp only [Bool.and_eq_true, decide_eq_true_eq] at hp
        exact .persist final hp.2
      · exact .refl _
    · exact .refl _
  | markFailed c e code =>
    rw [exec]
    split
    · rename_i db hmf
      rw [show db.jobs = _ from (markFailed_eq_true hmf).2.1]
      exact rowsMove_update fun j _ hp => .fail (holdsLease_iff.mp hp).2.1
    · exact .refl _
  | markRetryable c callId e code after =>
    rw [exec]
    split
    · rename_i db st hmr
      rw [show db.jobs = _ from (markRetryable_eq_some hmr).2.1]
      exact rowsMove_update fun j _ hp => .retry (holdsLease_iff.mp hp).2.1
    · exact .refl _
  | recordProviderCall c callId ev =>
    rw [exec]
    unfold recordProviderCall
    dsimp only
    split_ifs
    · refine rowsMove_update fun j _ hp => ?_
      simp only [Bool.and_eq_true] at hp
      exact .recordCall (holdsLease_iff.mp hp.1.1).2.1
    · exact .refl _
  | recordProviderCancelled jobId callId => exact rowsMove_update fun j _ _ => .recordCancelled
  | cancelOwnedJob user jobId =>
    rw [exec]
    split
    · exact .refl _
    · rename_i db row hc
      rcases cancelOwnedJob_eq_ok hc with rfl | ⟨found, hmem, howner, hid, hlive, hjobs, -⟩
      · exact .refl _
      · rw [show db.jobs = _ from hjobs]
        refine rowsMove_update fun j hj hp => ?_
        simp only [Bool.and_eq_true, decide_eq_true_eq] at hp
        obtain rfl : j = found := List.inj_on_of_nodup_map hids hj hmem (hp.2.trans hid.symm)
        exact .cancel hlive howner hid
  | recordConsent r user input =>
    rw [exec]
    split
    · exact .refl _
    · rename_i db e hc
      rw [show db.jobs = _ from (recordConsent_eq_ok hc).2]
      split_ifs with hw
      · exact rowsMove_update fun j _ hp => .withdraw hw hp
      · exact .refl _

/-- The tables that only gateway transactions write. -/
def Db.gatewayTables (db : Db) : List LedgerEntry × List CreditAccount × List ConsentEvent :=
  (db.creditLedger, db.creditAccounts, db.consentEvents)

/-- The transactions of the gateway. -/
def Op.gateway : Op → Bool
  | .createJob _ _ _ _ | .cancelOwnedJob _ _ | .recordConsent _ _ _ => true
  | _ => false

/-- The workers leave the gateway's tables alone. -/
theorem exec_gatewayTables (env : GatewayEnv) (w : World) (op : Op) (hop : op.gateway = false) :
    (exec env w op).db.gatewayTables = w.db.gatewayTables := by
  cases op with
  | createJob => cases hop
  | cancelOwnedJob => cases hop
  | recordConsent => cases hop
  | tick => rfl
  | recordProviderCancelled => rfl
  | materializeFixture id persisted =>
    rw [exec]
    split_ifs <;> rfl
  | readAuthority c =>
    rw [exec]
    split_ifs <;> rfl
  | claimOne tasks pick token attemptId =>
    rw [exec]
    cases hcl : claimOne w.now tasks pick token attemptId w.db with
    | mk db c =>
      rcases claimOne_eq hcl with ⟨rfl, rfl | rfl⟩ | ⟨prior, -, -, htake, rfl⟩
      · rfl
      · rfl
      · obtain ⟨_, -, h⟩ := Option.bind_eq_some_iff.mp htake
        obtain rfl := Option.some.inj h
        rfl
  | commitSucceeded c o final =>
    rw [exec]
    split_ifs
    · split
      · rename_i db hcs
        unfold commitSucceeded at hcs
        split_ifs at hcs
        · obtain ⟨rfl, -⟩ := Prod.mk.inj hcs
          rfl
        · cases (Prod.mk.inj hcs).2
      · rfl
    · rfl
  | markFailed c e code =>
    rw [exec]
    split
    · rename_i db hmf
      unfold markFailed at hmf
      split_ifs at hmf
      · cases (Prod.mk.inj hmf).2
      · obtain ⟨rfl, -⟩ := Prod.mk.inj hmf
        rfl
      · cases (Prod.mk.inj hmf).2
    · rfl
  | markRetryable c callId e code after =>
    rw [exec]
    split
    · rename_i db st hmr
      unfold markRetryable at hmr
      split_ifs at hmr
      · cases (Prod.mk.inj hmr).2
      · split at hmr
        · cases (Prod.mk.inj hmr).2
        · obtain ⟨rfl, -⟩ := Prod.mk.inj hmr
          rfl
    · rfl
  | recordProviderCall c callId ev =>
    rw [exec]
    unfold recordProviderCall
    dsimp only
    split_ifs <;> rfl

/-- What `createJob` inserts, and what it finds. -/
inductive CreateOutcome (env : GatewayEnv) (readings : Readings) (now : ℕ) (user id : String) (input : CreateJobInput)
    (db : Db) : Db → Job → Bool → Prop where
  /-- The key is bound to a row already. -/
  | replay {job : Job} (hmem : job ∈ db.jobs) :
      CreateOutcome env readings now user id input db (ensureCreditAccount user db) job false
  | fixture {job : Job} (hjob : job = newFixtureJob now user id input
        (input.idempotencyKey.map (env.scopedJobIdempotencyKey user)) readings.authoritativePayload
        (env.fixtureJobOutput input.kind readings.authoritativePayload))
      (hprovider : input.provider = .fixture) (hfresh : id ∉ db.jobs.map Job.id) :
      CreateOutcome env readings now user id input db
        { ensureCreditAccount user db with jobs := (ensureCreditAccount user db).jobs ++ [job] } job true
  | live {job : Job} (hjob : job = newQueuedJob now user id input
        (input.idempotencyKey.map (env.scopedJobIdempotencyKey user)) readings.authoritativePayload
        input.provider.costCredits (jobTimeoutSeconds input.kind readings.authoritativePayload))
      (hprovider : input.provider ≠ .fixture) (hfresh : id ∉ db.jobs.map Job.id) :
      CreateOutcome env readings now user id input db
        (if 0 < input.provider.costCredits then
          postCredit { userId := user, deltaCredits := -(input.provider.costCredits : ℤ),
                       reason := s!"modal {input.kind.text}", sourceKind := "job", sourceId := id,
                       idempotencyKey := s!"{id}:debit" }
            { ensureCreditAccount user db with jobs := (ensureCreditAccount user db).jobs ++ [job] }
        else { ensureCreditAccount user db with jobs := (ensureCreditAccount user db).jobs ++ [job] }) job false

theorem createJob_outcome {env : GatewayEnv} {r : Readings} {now : ℕ} {user id : String} {input : CreateJobInput}
    {db db' : Db} {job : Job} {flag : Bool} (h : createJob env r now user id input db = .ok (db', job, flag)) :
    ((consentRequirements input.kind input.payload).forM fun (purpose, subjectId) =>
      assertActiveConsent env r db user purpose subjectId) = .ok () ∧
      CreateOutcome env r now user id input db db' job flag := by
  unfold createJob at h
  split at h
  · cases h
  · obtain ⟨u, hconsents, h⟩ := bind_eq_ok.mp h
    refine ⟨hconsents, ?_⟩
    unfold createJobUnchecked at h
    dsimp only at h
    split_ifs at h with hp
    · rcases insertJob_eq_ok h with ⟨rfl, rfl, hmem⟩ | ⟨rfl, rfl, rfl, hfresh⟩
      · exact .replay (by simpa using hmem)
      · exact .fixture rfl hp (by simpa [newFixtureJob, newQueuedJob] using hfresh)
    · unfold createLiveJob at h
      obtain ⟨_, -, h⟩ := bind_eq_ok.mp h
      obtain ⟨⟨db₁, job₁, inserted⟩, hins, h⟩ := bind_eq_ok.mp h
      simp only [pure_eq_ok, Prod.mk.injEq] at h
      obtain ⟨rfl, rfl, rfl⟩ := h
      rcases insertJob_eq_ok hins with ⟨rfl, rfl, hmem⟩ | ⟨rfl, rfl, rfl, hfresh⟩
      · rw [if_neg (by simp)]
        exact .replay (by simpa using hmem)
      · simp only [true_and]
        exact .live rfl hp (by simpa [newQueuedJob] using hfresh)

/-- A row that was not there before carries the request. -/
theorem CreateOutcome.origin {env : GatewayEnv} {r : Readings} {now : ℕ} {user id : String} {input : CreateJobInput}
    {db db' : Db} {job : Job} {flag : Bool} (h : CreateOutcome env r now user id input db db' job flag) {j : Job}
    (hj : j ∈ db'.jobs) :
    j ∈ db.jobs ∨ (j.ownerUserId = user ∧ j.kind = input.kind ∧ j.input = r.authoritativePayload ∧
      (j.status = .queued ∨ j.status = .succeeded)) := by
  cases h with
  | replay => exact Or.inl (ensureCreditAccount_jobs user db ▸ hj)
  | fixture hjob =>
    rcases List.mem_append.mp hj with hj | hj
    · exact Or.inl (ensureCreditAccount_jobs user db ▸ hj)
    · rw [List.mem_singleton.mp hj, hjob]
      exact Or.inr ⟨rfl, rfl, rfl, Or.inr rfl⟩
  | live hjob =>
    have hj : j ∈ (ensureCreditAccount user db).jobs ++ [job] := by
      split_ifs at hj
      · rw [postCredit_jobs] at hj
        exact hj
      · exact hj
    rcases List.mem_append.mp hj with hj | hj
    · exact Or.inl (ensureCreditAccount_jobs user db ▸ hj)
    · rw [List.mem_singleton.mp hj, hjob]
      exact Or.inr ⟨rfl, rfl, rfl, Or.inl rfl⟩

end Forge.Queue
