import Forge.Data.Except
import Forge.Queue.System

/-!
# Lease fencing

What the lease token buys: whatever the interleaving, a finalisation is accepted
only from the holder of the job's latest claim and only while that lease runs, a
finished job stays finished, and every claim and every job's output counts at
most once.

The proof says once what any transaction does to the rows of `jobs`: every row is
kept in its lease columns or *released* (`Edge`), at most one fresh row is added,
and a claim in addition starts one row (`JobsStep`, `exec_jobsStep`). The
invariant `QueueInv` is preserved along these steps, and **`leaseFencing`**
reads the guarantees off it.
-/

namespace Forge.Queue

/-! ### What a transaction does to a row -/

/-- The row keeps its key, status, attempt counter and lease. -/
def SameLease (j j' : Job) : Prop :=
  j'.id = j.id ∧ j'.status = j.status ∧ j'.attempts = j.attempts ∧ j'.maxAttempts = j.maxAttempts ∧
    j'.leaseToken = j.leaseToken ∧ j'.leaseExpiresAt = j.leaseExpiresAt

/-- A live row loses its lease: finished, or queued again with an attempt left. -/
def Released (j j' : Job) : Prop :=
  j.status.terminal = false ∧ j'.id = j.id ∧ j'.attempts = j.attempts ∧ j'.maxAttempts = j.maxAttempts ∧
    j'.leaseToken = none ∧ j'.leaseExpiresAt = none ∧ j'.status ≠ .running ∧
    (j'.status = .queued → j.attempts < j.maxAttempts)

/-- What any transaction but a claim does to an existing row. -/
def Edge (j j' : Job) : Prop := SameLease j j' ∨ Released j j'

theorem SameLease.refl (j : Job) : SameLease j j := ⟨rfl, rfl, rfl, rfl, rfl, rfl⟩

theorem Edge.refl (j : Job) : Edge j j := Or.inl (.refl j)

theorem Edge.id {j j' : Job} (h : Edge j j') : j'.id = j.id := h.elim (fun h => h.1) fun h => h.2.1

theorem Edge.trans_same {j k l : Job} (h : Edge j k) (hs : SameLease k l) : Edge j l := by
  obtain ⟨s1, s2, s3, s4, s5, s6⟩ := hs
  rcases h with ⟨h1, h2, h3, h4, h5, h6⟩ | ⟨h0, h1, h2, h3, h4, h5, h6, h7⟩
  · exact Or.inl ⟨s1.trans h1, s2.trans h2, s3.trans h3, s4.trans h4, s5.trans h5, s6.trans h6⟩
  · exact Or.inr ⟨h0, s1.trans h1, s3.trans h2, s4.trans h3, s5.trans h4, s6.trans h5, s2 ▸ h6, s2 ▸ h7⟩

/-- A terminal row keeps its status. -/
theorem Edge.terminal {j j' : Job} (h : Edge j j') (ht : j.status.terminal = true) : j'.status = j.status := by
  rcases h with h | h
  · exact h.2.1
  · rw [h.1] at ht
    cases ht

/-- A row as `createJob` inserts it. -/
def Fresh (j : Job) : Prop :=
  j.leaseToken = none ∧ j.leaseExpiresAt = none ∧ j.attempts = 0 ∧ 0 < j.maxAttempts ∧
    (j.status = .queued ∨ j.status = .succeeded)

/-- What any transaction but a claim does to the table: an edge for each row, and at most
one fresh row under an unused key. -/
def JobsStep (t t' : List Job) : Prop :=
  ∃ (f : Job → Job) (new : Option Job), t' = t.map f ++ new.toList ∧ (∀ j ∈ t, Edge j (f j)) ∧
    ∀ j ∈ new, Fresh j ∧ j.id ∉ t.map Job.id

theorem JobsStep.refl (t : List Job) : JobsStep t t :=
  ⟨fun j => j, none, by simp, fun j _ => .refl j, by simp⟩

theorem jobsStep_update {p : Job → Bool} {f : Job → Job} {t : List Job} (h : ∀ j ∈ t, p j = true → Edge j (f j)) :
    JobsStep t (Table.update p f t) := by
  refine ⟨fun j => if p j then f j else j, none, by simp [Table.update], fun j hj => ?_, by simp⟩
  by_cases hp : p j = true
  · simpa [hp] using h j hj hp
  · simpa [hp] using Edge.refl j

theorem JobsStep.update_same {t t' : List Job} (h : JobsStep t t') {p : Job → Bool} {f : Job → Job}
    (hf : ∀ j, SameLease j (f j)) (hfresh : ∀ j, Fresh j → Fresh (f j)) : JobsStep t (Table.update p f t') := by
  obtain ⟨g, new, rfl, hg, hnew⟩ := h
  have hsame : ∀ j, SameLease j (if p j then f j else j) := fun j => by
    split_ifs
    · exact hf j
    · exact .refl j
  refine ⟨fun j => if p (g j) then f (g j) else g j, new.map fun j => if p j then f j else j, ?_,
    fun j hj => (hg j hj).trans_same (hsame _), ?_⟩
  · cases new <;> simp [Table.update, Function.comp_def]
  · intro j hj
    obtain ⟨k, hk, rfl⟩ := Option.map_eq_some_iff.mp hj
    obtain ⟨h1, h2⟩ := hnew k hk
    refine ⟨?_, by rwa [(hsame k).1]⟩
    split_ifs
    · exact hfresh k h1
    · exact h1

theorem JobsStep.ids {t t' : List Job} (h : JobsStep t t') (ht : (t.map Job.id).Nodup) : (t'.map Job.id).Nodup := by
  obtain ⟨f, new, rfl, hf, hnew⟩ := h
  have hmap : (t.map f).map Job.id = t.map Job.id := by
    rw [List.map_map]
    exact List.map_congr_left fun j hj => (hf j hj).id
  rw [List.map_append, hmap]
  cases new with
  | none => simpa using ht
  | some k =>
    rw [Option.toList_some, List.map_singleton]
    exact List.nodup_append.mpr ⟨ht, List.nodup_singleton _, fun a ha b hb hab =>
      (hnew k rfl).2 (by rw [List.mem_singleton.mp hb] at hab; exact hab ▸ ha)⟩

/-- Every row of the new table comes from a row of the old one, or is the fresh one. -/
theorem JobsStep.origin {t t' : List Job} (h : JobsStep t t') {j' : Job} (hj : j' ∈ t') :
    (∃ j ∈ t, Edge j j') ∨ (Fresh j' ∧ j'.id ∉ t.map Job.id) := by
  obtain ⟨f, new, rfl, hf, hnew⟩ := h
  rcases List.mem_append.mp hj with hj | hj
  · obtain ⟨j, hm, rfl⟩ := List.mem_map.mp hj
    exact Or.inl ⟨j, hm, hf j hm⟩
  · exact Or.inr (hnew j' (by simpa using hj))

/-- Every row of the old table is still there, changed along an edge. -/
theorem JobsStep.image {t t' : List Job} (h : JobsStep t t') {j : Job} (hj : j ∈ t) : ∃ j' ∈ t', Edge j j' := by
  obtain ⟨f, new, rfl, hf, -⟩ := h
  exact ⟨f j, List.mem_append_left _ (List.mem_map_of_mem hj), hf j hj⟩

/-! ### The transactions, row by row -/

theorem holdsLease_iff {now : ℕ} {h : ClaimedJob} {j : Job} :
    holdsLease now h j = true ↔ j.id = h.id ∧ j.status = .running ∧ j.leaseToken = some h.leaseToken ∧
      ∃ e, j.leaseExpiresAt = some e ∧ now < e := by
  simp [holdsLease, Option.any_eq_true, and_assoc]

theorem released_failExhausted {now : ℕ} {j : Job} (h : j.status = .running) : Released j (j.failExhausted now) :=
  ⟨by rw [h]; rfl, rfl, rfl, rfl, rfl, rfl, by simp [Job.failExhausted], by simp [Job.failExhausted]⟩

theorem released_succeed {now : ℕ} {o : Json} {j : Job} (h : j.status = .running) : Released j (j.succeed now o) :=
  ⟨by rw [h]; rfl, rfl, rfl, rfl, rfl, rfl, by simp [Job.succeed], by simp [Job.succeed]⟩

theorem released_fail {now : ℕ} {e c : String} {j : Job} (h : j.status = .running) : Released j (j.fail now e c) :=
  ⟨by rw [h]; rfl, rfl, rfl, rfl, rfl, rfl, by simp [Job.fail], by simp [Job.fail]⟩

theorem released_retry {now delay : ℕ} {e c : String} {j : Job} (h : j.status = .running) :
    Released j (j.retry now delay e c) := by
  have hlive : j.status.terminal = false := by rw [h]; rfl
  by_cases hlt : j.attempts < j.maxAttempts
  · exact ⟨hlive, by simp [Job.retry, hlt], by simp [Job.retry, hlt], by simp [Job.retry, hlt], by simp [Job.retry, hlt],
      by simp [Job.retry, hlt], by simp [Job.retry, hlt], fun _ => hlt⟩
  · exact ⟨hlive, by simp [Job.retry, hlt], by simp [Job.retry, hlt], by simp [Job.retry, hlt], by simp [Job.retry, hlt],
      by simp [Job.retry, hlt], by simp [Job.retry, hlt], by simp [Job.retry, hlt]⟩

theorem released_withdraw {now : ℕ} {p : ConsentPurpose} {j : Job} (h : j.status = .queued ∨ j.status = .running) :
    Released j (j.withdraw now p) :=
  ⟨by rcases h with h | h <;> rw [h] <;> rfl, rfl, rfl, rfl, rfl, rfl, by simp [Job.withdraw], by simp [Job.withdraw]⟩

theorem released_cancel {now : ℕ} {j : Job} (h : j.status = .queued ∨ j.status = .running) :
    Released j (j.cancel now) :=
  ⟨by rcases h with h | h <;> rw [h] <;> rfl, rfl, rfl, rfl, rfl, rfl, by simp [Job.cancel], by simp [Job.cancel]⟩

theorem exhaust_jobsStep (now : ℕ) (tasks : List JobKind) (db : Db) : JobsStep db.jobs (exhaust now tasks db).jobs :=
  jobsStep_update fun j _ hp => by
    simp only [exhausted, Bool.and_eq_true, decide_eq_true_eq] at hp
    exact Or.inr (released_failExhausted hp.1.1.1)

theorem commitSucceeded_jobsStep (now : ℕ) (h : ClaimedJob) (o : Json) (final : Option Json) (db : Db) :
    JobsStep db.jobs (commitSucceeded now h o final db).1.jobs := by
  unfold commitSucceeded
  split_ifs
  · exact (jobsStep_update fun j _ hp => Or.inr (released_succeed (holdsLease_iff.mp hp).2.1)).update_same
      (fun _ => ⟨rfl, rfl, rfl, rfl, rfl, rfl⟩) fun _ hf => hf
  · exact .refl _

theorem markFailed_jobsStep (now : ℕ) (h : ClaimedJob) (e c : String) (db : Db) :
    JobsStep db.jobs (markFailed now h e c db).1.jobs := by
  unfold markFailed
  split_ifs
  · exact .refl _
  · exact jobsStep_update fun j _ hp => Or.inr (released_fail (holdsLease_iff.mp hp).2.1)
  · exact .refl _

theorem markRetryable_jobsStep (now : ℕ) (h : ClaimedJob) (callId : Option String) (e c : String) (r : Option ℕ)
    (db : Db) : JobsStep db.jobs (markRetryable now h callId e c r db).1.jobs := by
  unfold markRetryable
  split_ifs
  · exact .refl _
  · split
    · exact .refl _
    · exact jobsStep_update fun j _ hp => Or.inr (released_retry (holdsLease_iff.mp hp).2.1)

theorem recordProviderCall_jobsStep (now : ℕ) (h : ClaimedJob) (callId : String) (ev : CallEvidence) (db : Db) :
    JobsStep db.jobs (recordProviderCall now h callId ev db).1.jobs := by
  unfold recordProviderCall
  dsimp only
  split_ifs
  · exact jobsStep_update fun j _ _ => Or.inl ⟨rfl, rfl, rfl, rfl, rfl, rfl⟩
  · exact .refl _

/-- What cancelling does: nothing to a cancelled job, else the row is cancelled and its open
attempt closed. -/
theorem cancelOwnedJob_eq_ok {now : ℕ} {user jobId : String} {db db' : Db} {row : Job}
    (h : cancelOwnedJob now user jobId db = .ok (db', row)) :
    db' = db ∨ ∃ found ∈ db.jobs, found.ownerUserId = user ∧ found.id = jobId ∧
      (found.status = .queued ∨ found.status = .running) ∧
      db'.jobs = Table.update (fun j => j.ownerUserId = user && j.id = jobId) (Job.cancel now) db.jobs ∧
      db'.attempts = closeAttempts now
        (fun a => found.status = .running && a.jobId = jobId && a.attempt = found.attempts) .cancelled
        (some "owner-cancelled") db.attempts := by
  unfold cancelOwnedJob at h
  split at h
  · cases h
  · rename_i found hfound
    have hid := List.find?_some hfound
    simp only [Bool.and_eq_true, decide_eq_true_eq] at hid
    split_ifs at h with hc hl
    · exact Or.inl (Prod.mk.inj (Except.ok.inj h)).1.symm
    · obtain ⟨rfl, -⟩ := Prod.mk.inj (Except.ok.inj h)
      exact Or.inr ⟨found, List.mem_of_find?_eq_some hfound, hid.1, hid.2, by tauto, rfl, rfl⟩

theorem cancelOwnedJob_jobsStep {now : ℕ} {user jobId : String} {db db' : Db} {row : Job}
    (hids : (db.jobs.map Job.id).Nodup) (h : cancelOwnedJob now user jobId db = .ok (db', row)) :
    JobsStep db.jobs db'.jobs := by
  rcases cancelOwnedJob_eq_ok h with rfl | ⟨found, hmem, -, hid, hlive, hjobs, -⟩
  · exact .refl _
  · rw [hjobs]
    refine jobsStep_update fun j hj hp => Or.inr (released_cancel ?_)
    simp only [Bool.and_eq_true, decide_eq_true_eq] at hp
    obtain rfl : j = found := List.inj_on_of_nodup_map hids hj hmem (hp.2.trans hid.symm)
    exact hlive

theorem recordConsent_jobsStep {env : GatewayEnv} {r : Readings} {now : ℕ} {user : String} {input : ConsentInput}
    {db db' : Db} {e : ConsentEvent} (h : recordConsent env r now user input db = .ok (db', e)) :
    JobsStep db.jobs db'.jobs := by
  unfold recordConsent at h
  split at h
  · cases h
  · split at h
    · split_ifs at h
      obtain ⟨rfl, -⟩ := Prod.mk.inj (Except.ok.inj h)
      exact .refl _
    · dsimp only at h
      split at h
      · obtain ⟨rfl, -⟩ := Prod.mk.inj (Except.ok.inj h)
        refine jobsStep_update fun j _ hp => Or.inr (released_withdraw ?_)
        simp only [withdrawalHits, Bool.and_eq_true, Bool.or_eq_true, decide_eq_true_eq] at hp
        exact hp.1.2
      · obtain ⟨rfl, -⟩ := Prod.mk.inj (Except.ok.inj h)
        exact .refl _

/-- What an insertion returns: the row of the replayed key, or the new row under a fresh id. -/
theorem insertJob_eq_ok {new job : Job} {db db' : Db} {inserted : Bool}
    (h : insertJob new db = .ok (db', job, inserted)) :
    (db' = db ∧ inserted = false ∧ job ∈ db.jobs) ∨
      (db' = { db with jobs := db.jobs ++ [new] } ∧ job = new ∧ inserted = true ∧ new.id ∉ db.jobs.map Job.id) := by
  unfold insertJob at h
  split at h
  · rename_i existing hex
    split_ifs at h
    simp only [Except.ok.injEq, Prod.mk.injEq] at h
    obtain ⟨rfl, rfl, rfl⟩ := h
    obtain ⟨key, -, hfind⟩ := Option.bind_eq_some_iff.mp hex
    exact Or.inl ⟨rfl, rfl, List.mem_of_find?_eq_some hfind⟩
  · split_ifs at h with hid
    simp only [Except.ok.injEq, Prod.mk.injEq] at h
    obtain ⟨rfl, rfl, rfl⟩ := h
    refine Or.inr ⟨rfl, rfl, rfl, fun hmem => hid ?_⟩
    obtain ⟨k, hk, hkid⟩ := List.mem_map.mp hmem
    exact List.any_eq_true.mpr ⟨k, hk, by simpa using hkid⟩

theorem fresh_newQueuedJob (now : ℕ) (user id : String) (input : CreateJobInput) (key : Option String) (payload : Json)
    (cost timeout : ℕ) : Fresh (newQueuedJob now user id input key payload cost timeout) :=
  ⟨rfl, rfl, rfl, by simp [newQueuedJob], Or.inl rfl⟩

theorem fresh_newFixtureJob (now : ℕ) (user id : String) (input : CreateJobInput) (key : Option String)
    (payload output : Json) : Fresh (newFixtureJob now user id input key payload output) :=
  ⟨rfl, rfl, rfl, by simp [newFixtureJob, newQueuedJob], Or.inr rfl⟩

@[simp] theorem ensureCreditAccount_jobs (user : String) (db : Db) : (ensureCreditAccount user db).jobs = db.jobs := by
  unfold ensureCreditAccount
  split_ifs <;> rfl

@[simp] theorem ensureCreditAccount_attempts (user : String) (db : Db) :
    (ensureCreditAccount user db).attempts = db.attempts := by
  unfold ensureCreditAccount
  split_ifs <;> rfl

@[simp] theorem postCredit_jobs (e : LedgerEntry) (db : Db) : (postCredit e db).jobs = db.jobs := by
  unfold postCredit
  split_ifs <;> rfl

@[simp] theorem postCredit_attempts (e : LedgerEntry) (db : Db) : (postCredit e db).attempts = db.attempts := by
  unfold postCredit
  split_ifs <;> rfl

/-- What creating a job does to jobs and attempts: nothing when the key is replayed, else one
fresh row, which is finished if its output is still to be materialised. -/
def Created (db db' : Db) (job : Job) (flag : Bool) : Prop :=
  db'.attempts = db.attempts ∧
    ((db'.jobs = db.jobs ∧ flag = false) ∨
      (db'.jobs = db.jobs ++ [job] ∧ Fresh job ∧ job.id ∉ db.jobs.map Job.id ∧
        (flag = true → job.status = .succeeded)))

theorem createLiveJob_eq_ok {env : GatewayEnv} {now : ℕ} {user id : String} {input : CreateJobInput}
    {key : Option String} {payload : Json} {db db' : Db} {job : Job} {flag : Bool}
    (h : createLiveJob env now user id input key payload db = .ok (db', job, flag)) : Created db db' job flag := by
  unfold createLiveJob at h
  obtain ⟨_, -, h⟩ := bind_eq_ok.mp h
  obtain ⟨⟨db₁, job₁, inserted⟩, hins, h⟩ := bind_eq_ok.mp h
  simp only [pure_eq_ok, Prod.mk.injEq] at h
  obtain ⟨rfl, rfl, rfl⟩ := h
  have hdebit : ∀ (e : LedgerEntry) (c : Prop) [Decidable c], (if c then postCredit e db₁ else db₁).jobs = db₁.jobs ∧
      (if c then postCredit e db₁ else db₁).attempts = db₁.attempts := fun e c _ => by split_ifs <;> simp
  rw [Created, (hdebit _ _).1, (hdebit _ _).2]
  rcases insertJob_eq_ok hins with ⟨rfl, -, -⟩ | ⟨rfl, rfl, -, hid⟩
  · exact ⟨rfl, Or.inl ⟨rfl, rfl⟩⟩
  · exact ⟨rfl, Or.inr ⟨rfl, fresh_newQueuedJob .., hid, by simp⟩⟩

theorem createJob_eq_ok {env : GatewayEnv} {r : Readings} {now : ℕ} {user id : String} {input : CreateJobInput}
    {db db' : Db} {job : Job} {flag : Bool} (h : createJob env r now user id input db = .ok (db', job, flag)) :
    Created db db' job flag := by
  unfold createJob at h
  split at h
  · cases h
  · obtain ⟨_, -, h⟩ := bind_eq_ok.mp h
    unfold createJobUnchecked at h
    dsimp only at h
    split_ifs at h
    · rcases insertJob_eq_ok h with ⟨rfl, rfl, -⟩ | ⟨rfl, rfl, rfl, hid⟩
      · exact ⟨by simp, Or.inl ⟨by simp, rfl⟩⟩
      · refine ⟨by simp, Or.inr ⟨by simp, fresh_newFixtureJob .., ?_, fun _ => rfl⟩⟩
        rwa [ensureCreditAccount_jobs] at hid
    · have := createLiveJob_eq_ok h
      rwa [Created, ensureCreditAccount_jobs, ensureCreditAccount_attempts] at this

theorem Created.jobsStep {db db' : Db} {job : Job} {flag : Bool} (h : Created db db' job flag) :
    JobsStep db.jobs db'.jobs := by
  obtain ⟨-, ⟨hj, -⟩ | ⟨hj, hf, hid, -⟩⟩ := h
  · rw [hj]
    exact .refl _
  · rw [hj]
    exact ⟨fun j => j, some job, by simp, fun j _ => .refl j, fun k hk => Option.some.inj hk ▸ ⟨hf, hid⟩⟩

/-- **Every transaction but a claim** keeps or releases each row and adds at most a fresh one. -/
theorem exec_jobsStep (env : GatewayEnv) (w : World) (op : Op) (hids : (w.db.jobs.map Job.id).Nodup)
    (hop : ∀ tasks pick token a, op ≠ .claimOne tasks pick token a) :
    JobsStep w.db.jobs (exec env w op).db.jobs := by
  cases op with
  | tick => exact .refl _
  | createJob r user id input =>
    rw [exec]
    split
    · exact .refl _
    · rename_i hc
      exact (createJob_eq_ok hc).jobsStep
  | materializeFixture id persisted =>
    rw [exec]
    split_ifs
    · exact jobsStep_update fun j _ _ => Or.inl ⟨rfl, rfl, rfl, rfl, rfl, rfl⟩
    · exact .refl _
  | claimOne tasks pick token a => exact absurd rfl (hop tasks pick token a)
  | readAuthority h =>
    rw [exec]
    split_ifs <;> exact .refl _
  | commitSucceeded h o final =>
    have := commitSucceeded_jobsStep w.now h o final w.db
    rw [exec]
    split_ifs
    · split
      · rename_i hc
        rwa [hc] at this
      · exact .refl _
    · exact .refl _
  | markFailed h e c =>
    have := markFailed_jobsStep w.now h e c w.db
    rw [exec]
    split
    · rename_i hc
      rwa [hc] at this
    · exact .refl _
  | markRetryable h callId e c r =>
    have := markRetryable_jobsStep w.now h callId e c r w.db
    rw [exec]
    split
    · rename_i hc
      rwa [hc] at this
    · exact .refl _
  | recordProviderCall h callId ev => exact recordProviderCall_jobsStep w.now h callId ev w.db
  | recordProviderCancelled jobId callId => exact jobsStep_update fun j _ _ => Or.inl ⟨rfl, rfl, rfl, rfl, rfl, rfl⟩
  | cancelOwnedJob user jobId =>
    rw [exec]
    split
    · exact .refl _
    · rename_i hc
      exact cancelOwnedJob_jobsStep hids hc
  | recordConsent r user input =>
    rw [exec]
    split
    · exact .refl _
    · rename_i hc
      exact recordConsent_jobsStep hc

/-- A claim sweeps the exhausted jobs and then starts at most one claimable row, if the attempt
table takes the new attempt. -/
theorem claimOne_eq {now : ℕ} {tasks : List JobKind} {pick : Option String} {token attemptId : String} {db db' : Db}
    {c : Option ClaimedJob} (h : claimOne now tasks pick token attemptId db = (db', c)) :
    (c = none ∧ (db' = db ∨ db' = exhaust now tasks db)) ∨
      ∃ prior ∈ (exhaust now tasks db).jobs, claimable now tasks prior = true ∧
        takeClaim now token attemptId prior (exhaust now tasks db) = some db' ∧
        c = some (prior.claimed now token attemptId) := by
  unfold claimOne at h
  split_ifs at h
  · obtain ⟨rfl, rfl⟩ := Prod.mk.inj h
    exact Or.inl ⟨rfl, Or.inl rfl⟩
  · dsimp only at h
    split at h
    · obtain ⟨rfl, rfl⟩ := Prod.mk.inj h
      exact Or.inl ⟨rfl, Or.inr rfl⟩
    · rename_i prior hpick
      obtain ⟨id, -, hfind⟩ := Option.bind_eq_some_iff.mp hpick
      obtain ⟨hmem, hclaim⟩ := List.mem_filter.mp (Table.find_some hfind).1
      split at h
      · obtain ⟨rfl, rfl⟩ := Prod.mk.inj h
        exact Or.inl ⟨rfl, Or.inl rfl⟩
      · rename_i dbTaken htake
        obtain ⟨rfl, rfl⟩ := Prod.mk.inj h
        exact Or.inr ⟨prior, hmem, hclaim, htake, rfl⟩

theorem takeClaim_jobs {now : ℕ} {token attemptId : String} {prior : Job} {db db' : Db}
    (h : takeClaim now token attemptId prior db = some db') :
    db'.jobs = Table.update (fun j => j.id = prior.id) (Job.startAttempt now token) db.jobs := by
  obtain ⟨_, -, h⟩ := Option.bind_eq_some_iff.mp h
  obtain rfl := Option.some.inj h
  rfl

/-! ### The invariant -/

/-- What every row of a reachable state satisfies. -/
structure JobOk (issued : List ClaimedJob) (j : Job) : Prop where
  /-- Running exactly when there is a token. -/
  running_iff : j.status = .running ↔ j.leaseToken.isSome = true
  /-- A token comes with an expiry. -/
  expiry_iff : j.leaseToken.isSome = true ↔ j.leaseExpiresAt.isSome = true
  bound : j.attempts ≤ j.maxAttempts
  /-- A queued job has an attempt left. -/
  queued : j.status = .queued → j.attempts < j.maxAttempts
  /-- The lease is that of the job's latest claim. -/
  holder : ∀ t, j.leaseToken = some t → ∃ h, latestClaim issued j.id = some h ∧ h.leaseToken = t ∧
    j.leaseExpiresAt = some h.leaseExpiresAt ∧ h.attempts = j.attempts

/-- The invariant of the table: unique keys, unique tokens, every row in order. -/
structure JobsOk (issued : List ClaimedJob) (jobs : List Job) : Prop where
  ids : (jobs.map Job.id).Nodup
  tokens : (issued.map ClaimedJob.leaseToken).Nodup
  rows : ∀ j ∈ jobs, JobOk issued j

/-- The invariant of the record: what was accepted or materialised counts once. -/
structure RecordOk (w : World) : Prop where
  authorized : ∀ h ∈ w.authorized, h ∈ w.issued
  accepted : ∀ h ∈ w.accepted, h ∈ w.issued
  /-- No row holds the token of an accepted claim any more. -/
  spent : ∀ h ∈ w.accepted, ∀ j ∈ w.db.jobs, j.leaseToken ≠ some h.leaseToken
  acceptedOnce : (w.accepted.map ClaimedJob.leaseToken).Nodup
  /-- Only finished jobs are materialised. -/
  finished : ∀ id ∈ w.pendingFixtures ++ w.materialized, ∃ j ∈ w.db.jobs, j.id = id ∧ j.status = .succeeded
  materializedOnce : (w.pendingFixtures ++ w.materialized).Nodup

/-- The invariant of the job system. -/
structure QueueInv (w : World) : Prop where
  jobs : JobsOk w.issued w.db.jobs
  record : RecordOk w

theorem Edge.token {j j' : Job} (h : Edge j j') {t : String} (ht : j'.leaseToken = some t) : j.leaseToken = some t := by
  rcases h with h | h
  · rw [← h.2.2.2.2.1, ht]
  · rw [h.2.2.2.2.1] at ht
    cases ht

theorem JobOk.edge {issued : List ClaimedJob} {j j' : Job} (h : JobOk issued j) (he : Edge j j') : JobOk issued j' := by
  rcases he with ⟨h1, h2, h3, h4, h5, h6⟩ | ⟨-, h1, h2, h3, h4, h5, h6, h7⟩
  · constructor
    · rw [h2, h5]; exact h.running_iff
    · rw [h5, h6]; exact h.expiry_iff
    · rw [h3, h4]; exact h.bound
    · rw [h2, h3, h4]; exact h.queued
    · rw [h1, h3, h5, h6]; exact h.holder
  · constructor
    · simp [h4, h6]
    · simp [h4, h5]
    · rw [h2, h3]; exact h.bound
    · rw [h2, h3]; exact h7
    · simp [h4]

theorem Fresh.jobOk {issued : List ClaimedJob} {j : Job} (h : Fresh j) : JobOk issued j := by
  obtain ⟨h1, h2, h3, h4, h5⟩ := h
  constructor
  · rcases h5 with h5 | h5 <;> simp [h1, h5]
  · simp [h1, h2]
  · omega
  · intro _
    omega
  · simp [h1]

theorem JobsOk.step {issued : List ClaimedJob} {t t' : List Job} (h : JobsOk issued t) (hs : JobsStep t t') :
    JobsOk issued t' where
  ids := hs.ids h.ids
  tokens := h.tokens
  rows j' hj' := by
    rcases hs.origin hj' with ⟨j, hj, he⟩ | ⟨hf, -⟩
    · exact (h.rows j hj).edge he
    · exact hf.jobOk

/-- Starting a claimable row under a fresh token keeps the table in order. -/
theorem JobsOk.start {issued : List ClaimedJob} {t : List Job} (h : JobsOk issued t) {now : ℕ} {tasks : List JobKind}
    {token attemptId : String} {prior : Job} (hp : prior ∈ t) (hc : claimable now tasks prior = true)
    (hfresh : ∀ c ∈ issued, c.leaseToken ≠ token) :
    JobsOk (prior.claimed now token attemptId :: issued)
      (Table.update (fun j => j.id = prior.id) (Job.startAttempt now token) t) where
  ids := by
    have hkeep : ∀ r, (decide (r.id = prior.id)) = true → (Job.startAttempt now token r).id = r.id := fun _ _ => rfl
    rw [Table.map_update hkeep]
    exact h.ids
  tokens := by
    rw [List.map_cons, List.nodup_cons]
    refine ⟨fun hmem => ?_, h.tokens⟩
    obtain ⟨c, hc, he⟩ := List.mem_map.mp hmem
    exact hfresh c hc he
  rows j' hj' := by
    obtain ⟨j, hj, rfl⟩ := Table.mem_update.mp hj'
    by_cases hid : j.id = prior.id
    · obtain rfl := List.inj_on_of_nodup_map h.ids hj hp hid
      simp only [claimable, Bool.and_eq_true, decide_eq_true_eq] at hc
      have hlt := hc.1.2
      simp only [decide_true, if_true]
      constructor
      · simp [Job.startAttempt]
      · simp [Job.startAttempt]
      · exact hlt
      · simp [Job.startAttempt]
      · rintro t ht
        obtain rfl : token = t := Option.some.inj ht
        exact ⟨j.claimed now token attemptId, by rw [latestClaim_cons]; exact if_pos rfl, rfl, rfl, rfl⟩
    · simp only [hid, decide_false, Bool.false_eq_true, if_false]
      have hj := h.rows j hj
      refine ⟨hj.running_iff, hj.expiry_iff, hj.bound, hj.queued, fun t ht => ?_⟩
      have hne : (prior.claimed now token attemptId).id ≠ j.id := fun he => hid (Eq.symm he)
      rw [latestClaim_cons, if_neg hne]
      exact hj.holder t ht

/-- A claim that a row honours is the job's latest, is not expired, and its token is held by
no other row. -/
theorem JobsOk.honoured {issued : List ClaimedJob} {t : List Job} (h : JobsOk issued t) {now : ℕ} {c : ClaimedJob}
    (hc : c ∈ issued) {r : Job} (hr : r ∈ t) (hl : holdsLease now c r = true) :
    latestClaim issued c.id = some c ∧ now < c.leaseExpiresAt ∧ c.attempts = r.attempts ∧
      ∀ j ∈ t, j.leaseToken = some c.leaseToken → j = r := by
  obtain ⟨hid, -, htok, e, he, hlt⟩ := holdsLease_iff.mp hl
  have unique : ∀ j ∈ t, j.leaseToken = some c.leaseToken → latestClaim issued j.id = some c ∧
      j.leaseExpiresAt = some c.leaseExpiresAt ∧ c.attempts = j.attempts := fun j hj hjt => by
    obtain ⟨c', h1, h2, h3, h4⟩ := (h.rows j hj).holder _ hjt
    obtain rfl := List.inj_on_of_nodup_map h.tokens (latestClaim_some h1).1 hc h2
    exact ⟨h1, h3, h4⟩
  obtain ⟨h1, h2, h3⟩ := unique r hr htok
  refine ⟨hid ▸ h1, ?_, h3, fun j hj hjt => ?_⟩
  · rw [h2] at he
    obtain rfl := Option.some.inj he
    exact hlt
  · have := (latestClaim_some (unique j hj hjt).1).2
    exact List.inj_on_of_nodup_map h.ids hj hr (this.symm.trans hid.symm)

/-- A step that only touches the tables keeps the record in order. -/
theorem RecordOk.step {w : World} (h : RecordOk w) {db : Db} (hs : JobsStep w.db.jobs db.jobs) :
    RecordOk { w with db } where
  authorized := h.authorized
  accepted := h.accepted
  spent c hc j' hj' ht := by
    rcases hs.origin hj' with ⟨j, hj, he⟩ | ⟨hf, -⟩
    · exact h.spent c hc j hj (he.token ht)
    · rw [hf.1] at ht
      cases ht
  acceptedOnce := h.acceptedOnce
  finished id hid := by
    obtain ⟨j, hj, rfl, hst⟩ := h.finished id hid
    obtain ⟨j', hj', he⟩ := hs.image hj
    exact ⟨j', hj', he.id, (he.terminal (by rw [hst]; rfl)).trans hst⟩
  materializedOnce := h.materializedOnce

/-- Rewriting the row that honours a claim leaves no row with its token. -/
theorem JobsOk.token_gone {issued : List ClaimedJob} {t : List Job} (h : JobsOk issued t) {now : ℕ} {c : ClaimedJob}
    (hc : c ∈ issued) {r : Job} (hr : r ∈ t) (hl : holdsLease now c r = true) {f : Job → Job}
    (hf : ∀ j, (f j).leaseToken = none) :
    ∀ j ∈ Table.update (holdsLease now c) f t, j.leaseToken ≠ some c.leaseToken := by
  intro j' hj' ht
  obtain ⟨j, hj, rfl⟩ := Table.mem_update.mp hj'
  by_cases hlj : holdsLease now c j = true
  · rw [if_pos hlj, hf] at ht
    cases ht
  · rw [if_neg hlj] at ht
    exact hlj ((h.honoured hc hr hl).2.2.2 j hj ht ▸ hl)

/-- Accepting a finalisation spends its claim. -/
theorem QueueInv.accept {w : World} (h : QueueInv w) {c : ClaimedJob} (hc : c ∈ w.issued) {r : Job}
    (hr : r ∈ w.db.jobs) (hl : holdsLease w.now c r = true) {db : Db} (hs : JobsStep w.db.jobs db.jobs)
    (hgone : ∀ j ∈ db.jobs, j.leaseToken ≠ some c.leaseToken) :
    RecordOk { w with db, accepted := c :: w.accepted } where
  authorized := h.record.authorized
  accepted c' hc' := (List.mem_cons.mp hc').elim (fun he => he ▸ hc) (h.record.accepted c')
  spent c' hc' := (List.mem_cons.mp hc').elim (fun he => he ▸ hgone) ((h.record.step hs).spent c')
  acceptedOnce := by
    rw [List.map_cons, List.nodup_cons]
    refine ⟨fun hmem => ?_, h.record.acceptedOnce⟩
    obtain ⟨c', hc', he⟩ := List.mem_map.mp hmem
    exact h.record.spent c' hc' r hr (by rw [he]; exact (holdsLease_iff.mp hl).2.2.1)
  finished := (h.record.step hs).finished
  materializedOnce := h.record.materializedOnce

/-- A running job's output was not materialised before. -/
theorem QueueInv.not_materialized {w : World} (h : QueueInv w) {r : Job} (hr : r ∈ w.db.jobs)
    (hrun : r.status = .running) : r.id ∉ w.pendingFixtures ++ w.materialized := fun hmem => by
  obtain ⟨j, hj, hid, hst⟩ := h.record.finished _ hmem
  obtain rfl := List.inj_on_of_nodup_map h.jobs.ids hj hr hid
  rw [hst] at hrun
  cases hrun

theorem commitSucceeded_eq_true {now : ℕ} {c : ClaimedJob} {o : Json} {final : Option Json} {db db' : Db}
    (h : commitSucceeded now c o final db = (db', true)) :
    (∃ r ∈ db.jobs, holdsLease now c r = true) ∧
      db'.jobs = Table.update (fun j => final.isSome && j.id = c.id && j.status = .succeeded)
        (fun j => { j with output := final }) (Table.update (holdsLease now c) (Job.succeed now o) db.jobs) ∧
      db'.attempts = closeClaim now c .succeeded none db := by
  unfold commitSucceeded at h
  split_ifs at h with hany
  · obtain ⟨rfl, -⟩ := Prod.mk.inj h
    exact ⟨List.any_eq_true.mp hany, rfl, rfl⟩
  · simp at h

theorem markFailed_eq_true {now : ℕ} {c : ClaimedJob} {e code : String} {db db' : Db}
    (h : markFailed now c e code db = (db', true)) :
    (∃ r ∈ db.jobs, holdsLease now c r = true) ∧
      db'.jobs = Table.update (holdsLease now c) (Job.fail now e code) db.jobs ∧
      db'.attempts = closeClaim now c .failed (some code) db := by
  unfold markFailed at h
  split_ifs at h with _ hany
  · simp at h
  · obtain ⟨rfl, -⟩ := Prod.mk.inj h
    exact ⟨List.any_eq_true.mp hany, rfl, rfl⟩
  · simp at h

theorem markRetryable_eq_some {now : ℕ} {c : ClaimedJob} {callId : Option String} {e code : String} {r : Option ℕ}
    {db db' : Db} {st : JobStatus} (h : markRetryable now c callId e code r db = (db', some st)) :
    (∃ row ∈ db.jobs, holdsLease now c row = true) ∧
      db'.jobs = Table.update (holdsLease now c) (Job.retry now (retryDelay c.attempts r) e code) db.jobs ∧
      ∃ o, o ≠ .running ∧ db'.attempts = closeClaim now c o (some code) db := by
  unfold markRetryable at h
  split_ifs at h
  · simp at h
  · split at h
    · simp at h
    · rename_i row hrow
      obtain ⟨rfl, -⟩ := Prod.mk.inj h
      refine ⟨⟨row, List.mem_of_find?_eq_some hrow, by simpa using List.find?_some hrow⟩, rfl, _, ?_, rfl⟩
      split_ifs <;> simp

theorem retry_leaseToken (now delay : ℕ) (e c : String) (j : Job) : (j.retry now delay e c).leaseToken = none := by
  by_cases h : j.attempts < j.maxAttempts <;> simp [Job.retry, h]

/-- **Step lemma**: every transaction of the system keeps the invariant. -/
theorem exec_inv (env : GatewayEnv) (w : World) (op : Op) (h : QueueInv w) (hadm : admissible w op) :
    QueueInv (exec env w op) := by
  cases op with
  | claimOne tasks pick token attemptId =>
    rw [exec]
    cases hcl : claimOne w.now tasks pick token attemptId w.db with
    | mk db c =>
      have hsweep := exhaust_jobsStep w.now tasks w.db
      rcases claimOne_eq hcl with ⟨rfl, rfl | rfl⟩ | ⟨prior, hp, hc, htake, rfl⟩
      · exact h
      · exact ⟨h.jobs.step hsweep, h.record.step hsweep⟩
      · have hjobs := takeClaim_jobs htake
        have hswept := h.record.step hsweep
        refine ⟨?_, ⟨fun c' hc' => List.mem_cons_of_mem _ (hswept.authorized c' hc'),
          fun c' hc' => List.mem_cons_of_mem _ (hswept.accepted c' hc'), fun c' hc' j' hj' ht => ?_,
          hswept.acceptedOnce, fun id hid => ?_, hswept.materializedOnce⟩⟩
        · rw [hjobs]
          exact (h.jobs.step hsweep).start hp hc hadm.2
        · rw [hjobs] at hj'
          obtain ⟨j, hj, rfl⟩ := Table.mem_update.mp hj'
          split_ifs at ht
          · exact hadm.2 c' (hswept.accepted c' hc') (Option.some.inj ht).symm
          · exact hswept.spent c' hc' j hj ht
        · obtain ⟨j, hj, rfl, hst⟩ := hswept.finished id hid
          refine ⟨j, ?_, rfl, hst⟩
          rw [hjobs]
          refine Table.mem_update.mpr ⟨j, hj, if_neg fun hid => ?_⟩
          obtain rfl := List.inj_on_of_nodup_map (h.jobs.step hsweep).ids hj hp (by simpa using hid)
          simp [claimable, hst] at hc
  | commitSucceeded c o final =>
    have hstep := exec_jobsStep env w (.commitSucceeded c o final) h.jobs.ids (by simp)
    rw [exec] at hstep ⊢
    by_cases hauth : c ∈ w.authorized
    · rw [if_pos hauth] at hstep ⊢
      have herase : ∀ c' ∈ w.authorized.erase c, c' ∈ w.issued := fun c' hc' =>
        h.record.authorized c' (List.mem_of_mem_erase hc')
      cases hcs : commitSucceeded w.now c o final w.db with
      | mk db ok =>
        cases ok with
        | false =>
          have r := h.record
          exact ⟨h.jobs, ⟨herase, r.accepted, r.spent, r.acceptedOnce, r.finished, r.materializedOnce⟩⟩
        | true =>
          rw [hcs] at hstep
          obtain ⟨⟨r, hr, hl⟩, hjobs, -⟩ := commitSucceeded_eq_true hcs
          have hid : r.id = c.id := (holdsLease_iff.mp hl).1
          have hrun : r.status = .running := (holdsLease_iff.mp hl).2.1
          have hrec : RecordOk { w with db, accepted := c :: w.accepted } := h.accept hadm hr hl hstep fun j' hj' => by
            rw [hjobs] at hj'
            obtain ⟨j, hj, rfl⟩ := Table.mem_update.mp hj'
            have := h.jobs.token_gone hadm hr hl (f := Job.succeed w.now o) (fun _ => rfl) j hj
            split_ifs <;> exact this
          have hnew := h.not_materialized hr hrun
          rw [hid] at hnew
          refine ⟨h.jobs.step hstep, ⟨herase, hrec.accepted, hrec.spent, hrec.acceptedOnce, fun id hmem => ?_, ?_⟩⟩
          · rcases List.mem_append.mp hmem with hm | hm
            · exact hrec.finished id (List.mem_append_left _ hm)
            · rcases List.mem_cons.mp hm with rfl | hm
              · obtain ⟨j', hj', he⟩ := hstep.image hr
                refine ⟨_, by rw [hjobs]; exact List.mem_map_of_mem (List.mem_map_of_mem hr), ?_, ?_⟩
                · simp only [hl, if_true]
                  split_ifs <;> exact hid
                · simp only [hl, if_true]
                  split_ifs <;> rfl
              · exact hrec.finished id (List.mem_append_right _ hm)
          · exact (List.perm_middle.nodup_iff).mpr (List.nodup_cons.mpr ⟨hnew, h.record.materializedOnce⟩)
    · rw [if_neg hauth]
      exact h
  | markFailed c e code =>
    have hstep := exec_jobsStep env w (.markFailed c e code) h.jobs.ids (by simp)
    rw [exec] at hstep ⊢
    cases hmf : markFailed w.now c e code w.db with
    | mk db ok =>
      cases ok with
      | false => exact h
      | true =>
        rw [hmf] at hstep
        obtain ⟨⟨r, hr, hl⟩, hjobs, -⟩ := markFailed_eq_true hmf
        refine ⟨h.jobs.step hstep, h.accept hadm hr hl hstep ?_⟩
        rw [hjobs]
        exact h.jobs.token_gone hadm hr hl fun _ => rfl
  | markRetryable c callId e code retryAfter =>
    have hstep := exec_jobsStep env w (.markRetryable c callId e code retryAfter) h.jobs.ids (by simp)
    rw [exec] at hstep ⊢
    cases hmr : markRetryable w.now c callId e code retryAfter w.db with
    | mk db st =>
      cases st with
      | none => exact h
      | some st =>
        rw [hmr] at hstep
        obtain ⟨⟨r, hr, hl⟩, hjobs, -⟩ := markRetryable_eq_some hmr
        refine ⟨h.jobs.step hstep, h.accept hadm hr hl hstep ?_⟩
        rw [hjobs]
        exact h.jobs.token_gone hadm hr hl (retry_leaseToken _ _ _ _)
  | createJob r user id input =>
    have hstep := exec_jobsStep env w (.createJob r user id input) h.jobs.ids (by simp)
    rw [exec] at hstep ⊢
    cases hc : createJob env r w.now user id input w.db with
    | error e => exact h
    | ok p =>
      obtain ⟨db, job, flag⟩ := p
      rw [hc] at hstep
      have hrec := h.record.step hstep
      refine ⟨h.jobs.step hstep, ?_⟩
      cases flag with
      | false => exact hrec
      | true =>
        obtain ⟨-, ⟨-, hf⟩ | ⟨hjobs, -, hid, hst⟩⟩ := createJob_eq_ok hc
        · cases hf
        · refine ⟨hrec.authorized, hrec.accepted, hrec.spent, hrec.acceptedOnce, fun k hk => ?_, ?_⟩
          · rcases List.mem_cons.mp hk with rfl | hk
            · exact ⟨job, by simp [hjobs], rfl, hst rfl⟩
            · exact hrec.finished k hk
          · refine List.nodup_cons.mpr ⟨fun hmem => ?_, h.record.materializedOnce⟩
            obtain ⟨j, hj, he, -⟩ := h.record.finished _ hmem
            exact hid (List.mem_map.mpr ⟨j, hj, he⟩)
  | materializeFixture id persisted =>
    have hstep := exec_jobsStep env w (.materializeFixture id persisted) h.jobs.ids (by simp)
    rw [exec] at hstep ⊢
    by_cases hmem : id ∈ w.pendingFixtures
    · rw [if_pos hmem] at hstep ⊢
      have hrec := h.record.step hstep
      have hperm : (w.pendingFixtures.erase id ++ id :: w.materialized).Perm (w.pendingFixtures ++ w.materialized) :=
        (List.perm_middle).trans (List.Perm.append_right _ (List.perm_cons_erase hmem).symm)
      exact ⟨h.jobs.step hstep, ⟨hrec.authorized, hrec.accepted, hrec.spent, hrec.acceptedOnce,
        fun k hk => hrec.finished k (hperm.subset hk), hperm.nodup_iff.mpr h.record.materializedOnce⟩⟩
    · rw [if_neg hmem]
      exact h
  | readAuthority c =>
    rw [exec]
    split_ifs
    · have r := h.record
      exact ⟨h.jobs, ⟨fun c' hc' => (List.mem_cons.mp hc').elim (fun he => he ▸ hadm) (r.authorized c'), r.accepted,
        r.spent, r.acceptedOnce, r.finished, r.materializedOnce⟩⟩
    · exact h
  | tick elapsed => exact ⟨h.jobs, ⟨h.record.1, h.record.2, h.record.3, h.record.4, h.record.5, h.record.6⟩⟩
  | recordProviderCall c callId ev =>
    have hstep := exec_jobsStep env w (.recordProviderCall c callId ev) h.jobs.ids (by simp)
    exact ⟨h.jobs.step hstep, h.record.step hstep⟩
  | recordProviderCancelled jobId callId =>
    have hstep := exec_jobsStep env w (.recordProviderCancelled jobId callId) h.jobs.ids (by simp)
    exact ⟨h.jobs.step hstep, h.record.step hstep⟩
  | cancelOwnedJob user jobId =>
    have hstep := exec_jobsStep env w (.cancelOwnedJob user jobId) h.jobs.ids (by simp)
    rw [exec] at hstep ⊢
    split at hstep
    · exact h
    · exact ⟨h.jobs.step hstep, h.record.step hstep⟩
  | recordConsent r user input =>
    have hstep := exec_jobsStep env w (.recordConsent r user input) h.jobs.ids (by simp)
    rw [exec] at hstep ⊢
    split at hstep
    · exact h
    · exact ⟨h.jobs.step hstep, h.record.step hstep⟩

theorem inv_empty : QueueInv World.empty where
  jobs := ⟨List.nodup_nil, List.nodup_nil, by simp [World.empty, Db.empty]⟩
  record := by constructor <;> simp [World.empty]

/-- **Run lemma**: the invariant holds in every state reached, whatever is asked of the steps. -/
theorem reach_inv {env : GatewayEnv} {ok : World → Op → Prop} {w : World} (h : (system env).Reach ok w) : QueueInv w :=
  System.Reach.invariant inv_empty (fun s op s' hs _ hst => by obtain ⟨hadm, rfl⟩ := hst; exact exec_inv env s op hs hadm) h

/-! ### The guarantees -/

/-- No step takes a finished job out of its status. -/
theorem exec_terminal (env : GatewayEnv) (w : World) (op : Op) (h : QueueInv w) {j : Job} (hj : j ∈ w.db.jobs)
    (ht : j.status.terminal = true) : ∃ j' ∈ (exec env w op).db.jobs, j'.id = j.id ∧ j'.status = j.status := by
  have along : ∀ {t' : List Job}, JobsStep w.db.jobs t' → ∃ j' ∈ t', j'.id = j.id ∧ j'.status = j.status :=
    fun hs => by
      obtain ⟨j', hj', he⟩ := hs.image hj
      exact ⟨j', hj', he.id, he.terminal ht⟩
  by_cases hop : ∃ tasks pick token a, op = .claimOne tasks pick token a
  · obtain ⟨tasks, pick, token, attemptId, rfl⟩ := hop
    rw [exec]
    cases hcl : claimOne w.now tasks pick token attemptId w.db with
    | mk db c =>
      have hsweep := exhaust_jobsStep w.now tasks w.db
      rcases claimOne_eq hcl with ⟨rfl, rfl | rfl⟩ | ⟨prior, hp, hc, htake, rfl⟩
      · exact ⟨j, hj, rfl, rfl⟩
      · exact along hsweep
      · obtain ⟨j', hj', hid, hst⟩ := along hsweep
        refine ⟨j', ?_, hid, hst⟩
        rw [takeClaim_jobs htake]
        refine Table.mem_update.mpr ⟨j', hj', if_neg fun hpid => ?_⟩
        -- the row that starts is queued or running, so it is not this one
        obtain rfl := List.inj_on_of_nodup_map (h.jobs.step hsweep).ids hj' hp (by simpa using hpid)
        rw [← hst] at ht
        simp only [claimable, Bool.and_eq_true, Bool.or_eq_true, decide_eq_true_eq] at hc
        rcases hc.2 with hq | hr
        · rw [hq.1] at ht
          cases ht
        · rw [hr.1] at ht
          cases ht
  · push Not at hop
    exact along (exec_jobsStep env w op h.jobs.ids hop)

/-- An accepted finalisation comes from the holder of the job's latest claim, in time. -/
theorem exec_accepted (env : GatewayEnv) (w : World) (op : Op) (h : QueueInv w) (hadm : admissible w op)
    {c : ClaimedJob} (hacc : (exec env w op).accepted = c :: w.accepted) :
    latestClaim w.issued c.id = some c ∧ w.now < c.leaseExpiresAt := by
  have honoured : ∀ r ∈ w.db.jobs, c ∈ w.issued → holdsLease w.now c r = true →
      latestClaim w.issued c.id = some c ∧ w.now < c.leaseExpiresAt := fun r hr hc hl =>
    let hh := h.jobs.honoured hc hr hl
    ⟨hh.1, hh.2.1⟩
  have unchanged : w.accepted ≠ c :: w.accepted := fun he => by simpa using congrArg List.length he
  cases op with
  | commitSucceeded c' o final =>
    rw [exec] at hacc
    split_ifs at hacc with hauth
    · split at hacc
      · rename_i hcs
        obtain rfl := (List.cons.inj hacc).1
        obtain ⟨⟨r, hr, hl⟩, -⟩ := commitSucceeded_eq_true hcs
        exact honoured r hr hadm hl
      · exact absurd hacc unchanged
    · exact absurd hacc unchanged
  | markFailed c' e code =>
    rw [exec] at hacc
    split at hacc
    · rename_i hmf
      obtain rfl := (List.cons.inj hacc).1
      obtain ⟨⟨r, hr, hl⟩, -⟩ := markFailed_eq_true hmf
      exact honoured r hr hadm hl
    · exact absurd hacc unchanged
  | markRetryable c' callId e code r =>
    rw [exec] at hacc
    split at hacc
    · rename_i hmr
      obtain rfl := (List.cons.inj hacc).1
      obtain ⟨⟨r, hr, hl⟩, -⟩ := markRetryable_eq_some hmr
      exact honoured r hr hadm hl
    · exact absurd hacc unchanged
  | tick => exact absurd hacc unchanged
  | recordProviderCall => exact absurd hacc unchanged
  | recordProviderCancelled => exact absurd hacc unchanged
  | claimOne tasks pick token a => exact absurd hacc unchanged
  | createJob r user id input =>
    rw [exec] at hacc
    split at hacc <;> exact absurd hacc unchanged
  | materializeFixture id persisted =>
    rw [exec] at hacc
    split_ifs at hacc <;> exact absurd hacc unchanged
  | readAuthority c' =>
    rw [exec] at hacc
    split_ifs at hacc <;> exact absurd hacc unchanged
  | cancelOwnedJob user jobId =>
    rw [exec] at hacc
    split at hacc <;> exact absurd hacc unchanged
  | recordConsent r user input =>
    rw [exec] at hacc
    split at hacc <;> exact absurd hacc unchanged

/-- What lease fencing guarantees of a state. -/
structure LeaseFenced (env : GatewayEnv) (w : World) : Prop where
  /-- A job is running exactly when it has a lease token and expiry, and otherwise has neither. -/
  lease : ∀ j ∈ w.db.jobs, (j.status = .running ↔ j.leaseToken.isSome = true ∧ j.leaseExpiresAt.isSome = true) ∧
    (j.status ≠ .running → j.leaseToken = none ∧ j.leaseExpiresAt = none)
  /-- No job exceeds its attempts, and a queued job has one left. -/
  budget : ∀ j ∈ w.db.jobs, j.attempts ≤ j.maxAttempts ∧ (j.status = .queued → j.attempts < j.maxAttempts)
  /-- A finalisation that is accepted here comes from the job's latest claim, before it expires. -/
  fence : ∀ op c, admissible w op → (exec env w op).accepted = c :: w.accepted →
    latestClaim w.issued c.id = some c ∧ w.now < c.leaseExpiresAt
  /-- Succeeded, failed and cancelled are absorbing. -/
  absorbing : ∀ w', (system env).Steps (fun _ _ => True) w w' → ∀ j ∈ w.db.jobs, j.status.terminal = true →
    ∃ j' ∈ w'.db.jobs, j'.id = j.id ∧ j'.status = j.status
  /-- Each claim has at most one accepted finalisation. -/
  acceptedOnce : (w.accepted.map ClaimedJob.leaseToken).Nodup
  /-- Each job's output is materialised at most once. -/
  materializedOnce : w.materialized.Nodup

/-- **Lease fencing**: every reachable state has the guarantees. -/
theorem leaseFencing (env : GatewayEnv) (w : World) (hw : (system env).Reachable w) : LeaseFenced env w := by
  have hinv : QueueInv w := reach_inv hw
  constructor
  · intro j hj
    have hok := hinv.jobs.rows j hj
    refine ⟨⟨fun h => ?_, fun h => hok.running_iff.mpr h.1⟩, fun h => ?_⟩
    · have htok := hok.running_iff.mp h
      exact ⟨htok, hok.expiry_iff.mp htok⟩
    · have htok : ¬ j.leaseToken.isSome = true := fun hs => h (hok.running_iff.mpr hs)
      exact ⟨Option.not_isSome_iff_eq_none.mp htok,
        Option.not_isSome_iff_eq_none.mp fun hs => htok (hok.expiry_iff.mpr hs)⟩
  · exact fun j hj => ⟨(hinv.jobs.rows j hj).bound, (hinv.jobs.rows j hj).queued⟩
  · exact fun op c hadm hacc => exec_accepted env w op hinv hadm hacc
  · intro w' hsteps j hj ht
    have : QueueInv w' ∧ ∃ j' ∈ w'.db.jobs, j'.id = j.id ∧ j'.status = j.status := by
      refine System.Steps.invariant (I := fun v => QueueInv v ∧ ∃ j' ∈ v.db.jobs, j'.id = j.id ∧ j'.status = j.status)
        ?_ hsteps ⟨hinv, j, hj, rfl, rfl⟩
      rintro s op s' ⟨hs, k, hk, hid, hst⟩ - ⟨hadm, rfl⟩
      obtain ⟨k', hk', hid', hst'⟩ := exec_terminal env s op hs hk (by rw [hst]; exact ht)
      exact ⟨exec_inv env s op hs hadm, k', hk', hid'.trans hid, hst'.trans hst⟩
    exact this.2
  · exact hinv.record.acceptedOnce
  · exact (List.nodup_append.mp hinv.record.materializedOnce).2.1

/-- A deployment for examples. -/
def sampleEnv : GatewayEnv where
  scopedJobIdempotencyKey user key := user ++ "/" ++ key
  noticeHash purpose := purpose.text
  modalMaxActiveJobs := 1
  modalDailyCreditLimit := 10
  fixtureJobOutput _ _ := .object []

/-- The payload of a photoscan of one photo. -/
def photoscanPayload : Json := .object [("sourceBlobIds", .array [.string "blob-1"])]

def sampleReadings : Readings where
  refusal := none
  ownership _ _ := none
  authoritativePayload := photoscanPayload

/-- A consent of `user-1` about the photo. -/
def photoConsent (action : ConsentAction) : Op :=
  .recordConsent sampleReadings "user-1"
    { purpose := .photoscanProcessing, subjectKind := .objectBlob, subjectId := "blob-1",
      policyVersion := consentPolicyVersion, noticeHash := sampleEnv.noticeHash .photoscanProcessing, action,
      idempotencyKey := none }

/-- A photo is consented to, its photoscan job created, and the job claimed by a worker. -/
def photoscanClaimed : List Op :=
  [photoConsent .grant,
   .createJob sampleReadings "user-1" "job-1"
     { kind := .photoscanSingle, provider := .localWorker, payload := photoscanPayload, idempotencyKey := none },
   .claimOne [.photoscanSingle] (some "job-1") "token-1" "attempt-1"]

/-- The guarantees hold after the photoscan job was claimed, and that job is running then. -/
theorem leaseFencing_photoscan :
    LeaseFenced sampleEnv (run sampleEnv .empty photoscanClaimed) ∧
      (run sampleEnv .empty photoscanClaimed).db.jobs.map Job.status = [.running] :=
  ⟨leaseFencing sampleEnv _ (steps_run (by decide)), by decide⟩

end Forge.Queue
