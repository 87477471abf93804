import Forge.Queue.Credits

/-!
# The Modal quota

`assertModalJobQuota` counts the Modal jobs that are queued or running and the credits of
those created since midnight, and leaves out the job that holds the caller's own
idempotency key. A job is inserted only where no job holds the key, so that what was
counted is everything (`CreateOutcome` says less; `createJob_within` is what the
quota needs). No other transaction adds a Modal job, revives a finished one or changes the
day or the cost of any. So both bounds hold in every reachable state (`modalQuota_kept`).
-/

namespace Forge.Queue

/-- The day of a timestamp, in UTC. -/
def dayOf (t : ℕ) : ℕ := t / (86400 * second)

/-- Modal jobs that are queued or running. -/
def Db.activeModal (db : Db) : ℕ := db.jobs.countP fun j => j.provider = .modal ∧ j.live

/-- The credits of the Modal jobs that were created on a day. -/
def Db.modalCredits (db : Db) (day : ℕ) : ℕ :=
  ((db.jobs.filter fun j => j.provider = .modal ∧ dayOf j.createdAt = day).map Job.costCredits).sum

/-- Both quotas are kept. -/
structure WithinQuota (env : GatewayEnv) (db : Db) : Prop where
  active : db.activeModal ≤ env.modalMaxActiveJobs
  daily : ∀ day, db.modalCredits day ≤ env.modalDailyCreditLimit

/-- A job holds the key that the gateway makes of a user's key. -/
def Db.holdsKey (db : Db) (key : String) : Prop := ∃ j ∈ db.jobs, j.idempotencyKey = some key

/-! ### What the quota counts -/

theorem dayStart_le_iff {now t : ℕ} : dayStart now ≤ t ↔ dayOf now ≤ dayOf t := by
  have hday : 0 < 86400 * second := by decide
  have hstart : dayStart now = dayOf now * (86400 * second) := by
    have := Nat.div_add_mod' now (86400 * second)
    unfold dayStart dayOf
    omega
  rw [hstart, dayOf, dayOf, Nat.le_div_iff_mul_le hday]

/-- Where no job holds the key, all Modal jobs count. -/
theorem quotaJobs_of_not_holdsKey {key : Option String} {db : Db} (h : ∀ k, key = some k → ¬ db.holdsKey k) :
    quotaJobs key db = db.jobs.filter fun j => j.provider = .modal := by
  refine List.filter_congr fun j hj => ?_
  cases key with
  | none => simp
  | some k =>
    have hne : j.idempotencyKey ≠ some k := fun hk => h k rfl ⟨j, hj, hk⟩
    simp [hne]

/-- The credits of a day are among those since its midnight. -/
theorem sum_filter_le {t : List Job} {p q : Job → Bool} (h : ∀ j ∈ t, p j = true → q j = true) :
    ((t.filter p).map Job.costCredits).sum ≤ ((t.filter q).map Job.costCredits).sum := by
  induction t with
  | nil => exact le_refl 0
  | cons j t ih =>
    have htail := ih fun k hk => h k (List.mem_cons_of_mem _ hk)
    by_cases hp : p j = true
    · rw [List.filter_cons_of_pos hp, List.filter_cons_of_pos (h j List.mem_cons_self hp)]
      simp only [List.map_cons, List.sum_cons]
      omega
    · rw [List.filter_cons_of_neg hp]
      by_cases hq : q j = true
      · rw [List.filter_cons_of_pos hq]
        simp only [List.map_cons, List.sum_cons]
        omega
      · rw [List.filter_cons_of_neg hq]
        exact htail

/-! ### What a creation does -/

section

variable {env : GatewayEnv} {readings : Readings} {now : ℕ} {user id : String} {input : CreateJobInput} {db db' : Db}
  {job : Job} {flag : Bool}

/-- A row is inserted only where no row holds its key. -/
theorem insertJob_fresh {new : Job} (h : insertJob new db = .ok (db', job, true)) :
    ∀ k, new.idempotencyKey = some k → ¬ db.holdsKey k := by
  rintro k hk ⟨j, hj, hjk⟩
  unfold insertJob at h
  rw [hk, Option.bind_some] at h
  cases hfind : db.jobs.find? fun j => j.idempotencyKey = some k with
  | none => exact List.find?_eq_none.mp hfind j hj (by simpa using hjk)
  | some existing =>
    rw [hfind] at h
    dsimp only at h
    split_ifs at h
    exact absurd (Prod.mk.inj (Prod.mk.inj (Except.ok.inj h)).2).2 Bool.false_ne_true

/-- The key that a request is stored under. -/
def storedKey (env : GatewayEnv) (user : String) (input : CreateJobInput) : Option String :=
  input.idempotencyKey.map (env.scopedJobIdempotencyKey user)

/-- What `createJob` does to the jobs and the ledger. -/
inductive Creation (env : GatewayEnv) (now : ℕ) (key : Option String) (db db' : Db) : Prop where
  /-- The key is bound to a row already. -/
  | replayed (hjobs : db'.jobs = db.jobs) (hledger : db'.creditLedger = db.creditLedger)
  /-- The row is new, within the quota if it is a Modal job. -/
  | inserted (new : Job) (hjobs : db'.jobs = db.jobs ++ [new]) (hnow : new.createdAt = now)
      (hkey : ∀ k, key = some k → ¬ db.holdsKey k)
      (hquota : new.provider = .modal → assertModalJobQuota env now new.costCredits key db = .ok ())

/-- What the quota reads does not depend on the accounts. -/
theorem assertQuota_ensureCreditAccount (env : GatewayEnv) (now cost : ℕ) (provider : Provider) (key : Option String) :
    assertQuota env now provider cost key (ensureCreditAccount user db) = assertQuota env now provider cost key db := by
  unfold assertQuota assertModalJobQuota quotaJobs
  rw [ensureCreditAccount_jobs]

theorem holdsKey_ensureCreditAccount {k : String} : (ensureCreditAccount user db).holdsKey k ↔ db.holdsKey k := by
  unfold Db.holdsKey
  rw [ensureCreditAccount_jobs]

theorem createJob_creation (h : createJob env readings now user id input db = .ok (db', job, flag)) :
    Creation env now (storedKey env user input) db db' := by
  unfold createJob at h
  split at h
  · cases h
  · obtain ⟨_, -, h⟩ := bind_eq_ok.mp h
    unfold createJobUnchecked at h
    dsimp only at h
    split_ifs at h with hp
    · rcases insertJob_eq_ok h with ⟨rfl, -, -⟩ | ⟨rfl, rfl, rfl, -⟩
      · exact .replayed (ensureCreditAccount_jobs user db) ensureCreditAccount_ledger
      · refine .inserted _ (congrArg (· ++ _) (ensureCreditAccount_jobs user db)) ?_ (fun k hk hh => ?_) fun hm => ?_
        · rfl
        · exact insertJob_fresh h k hk (holdsKey_ensureCreditAccount.mpr hh)
        · have hm : input.provider = .modal := hm
          rw [hp] at hm
          cases hm
    · unfold createLiveJob at h
      obtain ⟨_, hquota, h⟩ := bind_eq_ok.mp h
      obtain ⟨⟨db₁, job₁, inserted⟩, hins, h⟩ := bind_eq_ok.mp h
      simp only [pure_eq_ok, Prod.mk.injEq] at h
      obtain ⟨rfl, rfl, rfl⟩ := h
      rw [assertQuota_ensureCreditAccount] at hquota
      rcases insertJob_eq_ok hins with ⟨rfl, rfl, -⟩ | ⟨rfl, rfl, rfl, -⟩
      · rw [if_neg (by simp)]
        exact .replayed (ensureCreditAccount_jobs user db) ensureCreditAccount_ledger
      · refine .inserted (newQueuedJob now user id input (storedKey env user input) readings.authoritativePayload
          input.provider.costCredits (jobTimeoutSeconds input.kind readings.authoritativePayload)) ?_ rfl
          (fun k hk hh => ?_) fun hm => ?_
        · rw [← ensureCreditAccount_jobs user db]
          split_ifs
          · exact postCredit_jobs _ _
          · rfl
        · exact insertJob_fresh hins k hk (holdsKey_ensureCreditAccount.mpr hh)
        · have hm : input.provider = .modal := hm
          rw [assertQuota, if_pos hm] at hquota
          exact hquota

end

/-! ### Rows keep their day and their cost -/

theorem Move.createdAt {env : GatewayEnv} {w : World} {op : Op} {j j' : Job} (h : Move env w op j j') :
    j'.createdAt = j.createdAt := by
  cases h with
  | retry hrun =>
    rw [Job.retry]
    split_ifs <;> rfl
  | _ => rfl

theorem Moves.createdAt {env : GatewayEnv} {w : World} {op : Op} {j j' : Job} (h : Moves env w op j j') :
    j'.createdAt = j.createdAt := by
  induction h with
  | refl => rfl
  | tail _ hm ih => exact hm.createdAt.trans ih

/-- Changes of rows keep both quotas. -/
theorem WithinQuota.rowsMove {env : GatewayEnv} {w : World} {op : Op} {db db' : Db} (h : WithinQuota env db)
    (hrows : RowsMove env w op db.jobs db'.jobs) : WithinQuota env db' := by
  obtain ⟨f, hf, hmoves⟩ := hrows
  constructor
  · refine le_trans ?_ h.active
    rw [Db.activeModal, hf, List.countP_map]
    refine List.countP_mono_left fun j hj hlive => ?_
    simp only [Function.comp_apply, decide_eq_true_eq] at hlive ⊢
    exact ⟨(hmoves j hj).sameRequest.provider ▸ hlive.1, (hmoves j hj).live_of_live hlive.2⟩
  · intro day
    have hsame : db'.modalCredits day = db.modalCredits day := by
      have hfilter : (db.jobs.filter fun j => decide ((f j).provider = .modal ∧ dayOf (f j).createdAt = day)) =
          db.jobs.filter fun j => decide (j.provider = .modal ∧ dayOf j.createdAt = day) :=
        List.filter_congr fun j hj => by rw [(hmoves j hj).sameRequest.provider, (hmoves j hj).createdAt]
      rw [Db.modalCredits, hf, List.filter_map, List.map_map, Db.modalCredits, ← hfilter]
      refine congrArg List.sum (List.map_congr_left fun j hj => ?_)
      exact (hmoves j (List.mem_of_mem_filter hj)).sameRequest.costCredits
    exact hsame ▸ h.daily day

/-- What the quota check says where no job holds the key. -/
theorem assertModalJobQuota_ok {env : GatewayEnv} {now cost : ℕ} {key : Option String} {db : Db}
    (hkey : ∀ k, key = some k → ¬ db.holdsKey k) (h : assertModalJobQuota env now cost key db = .ok ()) :
    db.activeModal < env.modalMaxActiveJobs ∧ db.modalCredits (dayOf now) + cost ≤ env.modalDailyCreditLimit := by
  unfold assertModalJobQuota at h
  rw [quotaJobs_of_not_holdsKey hkey] at h
  dsimp only at h
  split_ifs at h with hactive hdaily
  have hcount : db.activeModal = ((db.jobs.filter fun j => decide (j.provider = .modal)).filter fun j =>
      decide (j.status = .queued) || decide (j.status = .running)).length := by
    rw [Db.activeModal, List.countP_eq_length_filter, List.filter_filter]
    refine congrArg List.length (List.filter_congr fun j _ => ?_)
    rw [← Bool.decide_or, ← Bool.decide_and]
    exact decide_eq_decide.mpr and_comm
  have hsum : db.modalCredits (dayOf now) ≤ (((db.jobs.filter fun j => decide (j.provider = .modal)).filter fun j =>
      decide (dayStart now ≤ j.createdAt)).map Job.costCredits).sum := by
    rw [List.filter_filter]
    refine sum_filter_le fun j _ hj => ?_
    simp only [decide_eq_true_eq] at hj
    rw [Bool.and_eq_true, decide_eq_true_eq, decide_eq_true_eq, dayStart_le_iff]
    exact ⟨hj.2.ge, hj.1⟩
  omega

/-- A new row adds its credits to its day. -/
theorem modalCredits_append {db db' : Db} {new : Job} (hjobs : db'.jobs = db.jobs ++ [new]) (day : ℕ) :
    db'.modalCredits day = db.modalCredits day +
      if new.provider = .modal ∧ dayOf new.createdAt = day then new.costCredits else 0 := by
  rw [Db.modalCredits, hjobs, List.filter_append, List.map_append, List.sum_append, ← Db.modalCredits]
  by_cases hnew : new.provider = .modal ∧ dayOf new.createdAt = day
  · have hone : [new].filter (fun j => decide (j.provider = .modal ∧ dayOf j.createdAt = day)) = [new] :=
      List.filter_cons_of_pos (decide_eq_true hnew)
    rw [if_pos hnew, hone]
    rfl
  · have hnone : [new].filter (fun j => decide (j.provider = .modal ∧ dayOf j.createdAt = day)) = [] :=
      List.filter_cons_of_neg (by simpa using hnew)
    rw [if_neg hnew, hnone]
    rfl

/-- A creation keeps both quotas. -/
theorem WithinQuota.creation {env : GatewayEnv} {now : ℕ} {key : Option String} {db db' : Db} (h : WithinQuota env db)
    (hc : Creation env now key db db') : WithinQuota env db' := by
  cases hc with
  | replayed hjobs =>
    constructor
    · rw [Db.activeModal, hjobs]
      exact h.active
    · intro day
      rw [Db.modalCredits, hjobs]
      exact h.daily day
  | inserted new hjobs hnow hkey hquota =>
    by_cases hm : new.provider = .modal
    · obtain ⟨hactive, hdaily⟩ := assertModalJobQuota_ok hkey (hquota hm)
      constructor
      · rw [Db.activeModal, hjobs, List.countP_append]
        have hone := List.countP_le_length (p := fun j : Job => decide (j.provider = .modal ∧ j.live)) (l := [new])
        rw [List.length_singleton] at hone
        unfold Db.activeModal at hactive
        omega
      · intro day
        rw [modalCredits_append hjobs]
        by_cases hday : dayOf now = day
        · rw [if_pos ⟨hm, hnow ▸ hday⟩, ← hday]
          exact hdaily
        · rw [if_neg fun hc => hday (hnow ▸ hc.2)]
          exact h.daily day
    · constructor
      · rw [Db.activeModal, hjobs, List.countP_append, List.countP_singleton, if_neg (by simp [hm])]
        exact h.active
      · intro day
        rw [modalCredits_append hjobs, if_neg fun hc => hm hc.1]
        exact h.daily day

/-- **Step lemma**: every transaction keeps both quotas. -/
theorem exec_withinQuota (env : GatewayEnv) (w : World) (op : Op) (hq : QueueInv w) (h : WithinQuota env w.db) :
    WithinQuota env (exec env w op).db := by
  by_cases hcreate : ∃ r user id input, op = .createJob r user id input
  · obtain ⟨r, user, id, input, rfl⟩ := hcreate
    rw [exec]
    split
    · exact h
    · rename_i hc
      exact h.creation (createJob_creation hc)
  · push Not at hcreate
    exact h.rowsMove (exec_moves env w op hq.jobs.ids hcreate)

/-- A replay leaves jobs and ledger as they are. -/
theorem exec_replay (env : GatewayEnv) (w : World) (r : Readings) (user id : String) (input : CreateJobInput) {k : String}
    (hk : storedKey env user input = some k) (hheld : w.db.holdsKey k) :
    (exec env w (.createJob r user id input)).db.jobs = w.db.jobs ∧
      (exec env w (.createJob r user id input)).db.creditLedger = w.db.creditLedger := by
  rw [exec]
  split
  · exact ⟨rfl, rfl⟩
  · rename_i hc
    cases createJob_creation hc with
    | replayed hjobs hledger => exact ⟨hjobs, hledger⟩
    | inserted new hjobs hnow hkey hquota => exact absurd hheld (hkey k hk)

/-- **The Modal quota**: in every reachable state both bounds hold, and a request under a key that a job holds
creates neither a job nor a debit. -/
theorem modalQuota_kept (env : GatewayEnv) (w : World) (hw : (system env).Reachable w) :
    WithinQuota env w.db ∧
      ∀ r user id input k, storedKey env user input = some k → w.db.holdsKey k →
        (exec env w (.createJob r user id input)).db.jobs = w.db.jobs ∧
        (exec env w (.createJob r user id input)).db.creditLedger = w.db.creditLedger := by
  have hinv : QueueInv w ∧ WithinQuota env w.db := by
    refine System.Reach.invariant (I := fun v => QueueInv v ∧ WithinQuota env v.db) ?_ ?_ hw
    · exact ⟨queueInv_opened [], ⟨Nat.zero_le _, fun _ => Nat.zero_le _⟩⟩
    · rintro s op s' ⟨hq, h⟩ - ⟨hadm, rfl⟩
      exact ⟨exec_inv env s op hq hadm, exec_withinQuota env s op hq h⟩
  exact ⟨hinv.2, fun r user id input k => exec_replay env w r user id input⟩

/-- After a Modal photoscan and its replay one job is active, and one credit was spent on the first day. -/
theorem modalQuota_kept_photoscan :
    (run sampleEnv .empty modalPhotoscan).db.activeModal = 1 ∧
      (run sampleEnv .empty modalPhotoscan).db.modalCredits 0 = 1 ∧
      WithinQuota sampleEnv (run sampleEnv .empty modalPhotoscan).db :=
  ⟨by decide, by decide, (modalQuota_kept sampleEnv _ (steps_run (by decide))).1⟩

end Forge.Queue
