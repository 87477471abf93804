import Forge.Queue.Fencing

/-!
# The attempt log

Every claim of a job opens a row of `job_observability_attempts`, and every path
that takes a job out of `running` is meant to close it again. The workers'
transactions, the sweep of a claim and `cancelOwnedJob` do; `applyWithdrawal`
cancels running jobs and leaves their open row as it is. So the log is consistent
as long as no withdrawal hits a running job, and the first one that does breaks it
(**`attemptLog_consistent`**).

The proof says once what any transaction but a claim does to jobs and attempts
together: it changes each row of `jobs` along an edge, and closes the running
attempt of a job exactly when the job stops running (`LogStep`).
-/

namespace Forge.Queue

/-- The attempt rows of each job are exactly the attempts `1..attempts`, no row below the last is
running, and the last one is running exactly when the job is. -/
def AttemptLogConsistent (w : World) : Prop :=
  ∀ j ∈ w.db.jobs,
    (w.db.attemptsOf j.id).map Attempt.attempt = List.range' 1 j.attempts ∧
      (∀ a ∈ w.db.attemptsOf j.id, a.attempt < j.attempts → a.outcome ≠ .running) ∧
      ((∃ a ∈ w.db.attemptsOf j.id, a.attempt = j.attempts ∧ a.outcome = .running) ↔ j.status = .running)

/-- The request is a withdrawal and takes effect. -/
def withdraws (env : GatewayEnv) (readings : Readings) (user : String) (input : ConsentInput) (db : Db) : Bool :=
  input.action = .withdraw && (consentRefusal env readings input).isNone &&
    (replayedConsent db user input.idempotencyKey).isNone

/-- No withdrawal hits a running job. -/
def SparesRunning (env : GatewayEnv) (w : World) : Op → Prop
  | .recordConsent readings user input =>
    withdraws env readings user input w.db = true →
      ∀ j ∈ w.db.jobs, withdrawalHits user input.purpose input.subjectId j = true → j.status ≠ .running
  | _ => True

instance (env : GatewayEnv) (w : World) : (op : Op) → Decidable (SparesRunning env w op)
  | .recordConsent readings user input =>
    inferInstanceAs (Decidable (withdraws env readings user input w.db = true →
      ∀ j ∈ w.db.jobs, withdrawalHits user input.purpose input.subjectId j = true → j.status ≠ .running))
  | .tick _ | .createJob _ _ _ _ | .materializeFixture _ _ | .claimOne _ _ _ _ | .readAuthority _
  | .commitSucceeded _ _ _ | .markFailed _ _ _ | .markRetryable _ _ _ _ _ | .recordProviderCall _ _ _
  | .recordProviderCancelled _ _ | .cancelOwnedJob _ _ => isTrue trivial

/-! ### The log of one job -/

/-- Rows `1..n`, of which only the last may be running, and is exactly when the log is open. -/
structure LogOk (rows : List Attempt) (n : ℕ) (isOpen : Prop) : Prop where
  numbers : rows.map Attempt.attempt = List.range' 1 n
  /-- Only the last row may be running, and only in an open log. -/
  running : ∀ a ∈ rows, a.outcome = .running → a.attempt = n ∧ isOpen
  /-- An open log has a running row. -/
  opened : isOpen → ∃ a ∈ rows, a.outcome = .running

theorem LogOk.congr {rows : List Attempt} {n : ℕ} {p q : Prop} (h : LogOk rows n p) (hpq : p ↔ q) : LogOk rows n q :=
  propext hpq ▸ h

theorem LogOk.empty : LogOk [] 0 False := ⟨rfl, by simp, False.elim⟩

/-- Closing the running row closes the log. -/
theorem LogOk.close {rows : List Attempt} {n : ℕ} {p : Prop} (h : LogOk rows n p) {now : ℕ} {sel : Attempt → Bool}
    {o : Outcome} {c : Option String} (ho : o ≠ .running)
    (hsel : ∀ a ∈ rows, a.outcome = .running → sel a = true) : LogOk (closeAttempts now sel o c rows) n False where
  numbers := by rw [map_closeAttempts fun _ _ => rfl]; exact h.numbers
  running a ha hrun := by
    obtain ⟨b, hb, -, -, -, ⟨h1, h2⟩ | ⟨-, h1⟩⟩ := mem_closeAttempts ha
    · exact absurd (h1 ▸ hrun) (h2 (hsel b hb (h1 ▸ hrun)))
    · exact absurd (h1 ▸ hrun) ho
  opened := False.elim

/-- A close that selects no running row changes nothing. -/
theorem closeAttempts_eq_self {now : ℕ} {sel : Attempt → Bool} {o : Outcome} {c : Option String} {rows : List Attempt}
    (h : ∀ a ∈ rows, a.outcome = .running → sel a = false) : closeAttempts now sel o c rows = rows := by
  rw [closeAttempts, Table.update, List.map_congr_left (g := id), List.map_id]
  intro a ha
  by_cases hrun : a.outcome = .running
  · simp [h a ha hrun]
  · simp [hrun]

/-- A new attempt opens a closed log. -/
theorem LogOk.append {rows : List Attempt} {n : ℕ} (h : LogOk rows n False) {new : Attempt}
    (hn : new.attempt = n + 1) (hrun : new.outcome = .running) : LogOk (rows ++ [new]) (n + 1) True where
  numbers := by
    rw [List.map_append, h.numbers, List.map_singleton, hn, List.range'_concat]
    simp [Nat.add_comm]
  running a ha harun := by
    rcases List.mem_append.mp ha with ha | ha
    · exact (h.running a ha harun).2.elim
    · rw [List.mem_singleton.mp ha]
      exact ⟨hn, trivial⟩
  opened _ := ⟨new, by simp, hrun⟩

/-! ### The invariant -/

theorem mem_attemptsOf {db : Db} {id : String} {a : Attempt} : a ∈ db.attemptsOf id ↔ a ∈ db.attempts ∧ a.jobId = id := by
  simp [Db.attemptsOf]

/-- The rows of one job after a close. -/
theorem attemptsOf_close {db db' : Db} {now : ℕ} {sel : Attempt → Bool} {o : Outcome} {c : Option String}
    (h : db'.attempts = closeAttempts now sel o c db.attempts) (id : String) :
    db'.attemptsOf id = closeAttempts now sel o c (db.attemptsOf id) := by
  rw [Db.attemptsOf, h]
  refine Table.filter_update ?_ _
  exact fun _ _ => rfl

/-- The invariant of jobs and attempts. -/
structure AttemptsOk (issued : List ClaimedJob) (db : Db) : Prop where
  log : ∀ j ∈ db.jobs, LogOk (db.attemptsOf j.id) j.attempts (j.status = .running)
  /-- The running attempt is the one of the job's latest claim. -/
  holder : ∀ j ∈ db.jobs, ∀ a ∈ db.attemptsOf j.id, a.outcome = .running →
    ∀ h, latestClaim issued j.id = some h → a.attemptId = h.attemptId
  /-- Every row belongs to a job. -/
  known : ∀ a ∈ db.attempts, a.jobId ∈ db.jobs.map Job.id

theorem AttemptsOk.consistent {w : World} (h : AttemptsOk w.issued w.db) : AttemptLogConsistent w := by
  intro j hj
  have hlog := h.log j hj
  refine ⟨hlog.numbers, fun a ha hlt hrun => absurd (hlog.running a ha hrun).1 (by omega), ?_, fun hrun => ?_⟩
  · rintro ⟨a, ha, -, hrun⟩
    exact (hlog.running a ha hrun).2
  · obtain ⟨a, ha, harun⟩ := hlog.opened hrun
    exact ⟨a, ha, (hlog.running a ha harun).1, harun⟩

/-- What any transaction but a claim does to jobs and attempts: every row of `jobs` changes along
an edge, a running attempt is closed exactly when its job stops running, and at most one fresh
job is added. -/
def LogStep (db db' : Db) : Prop :=
  ∃ (f : Job → Job) (new : Option Job) (now : ℕ) (sel : Attempt → Bool) (o : Outcome) (c : Option String),
    db'.jobs = db.jobs.map f ++ new.toList ∧ db'.attempts = closeAttempts now sel o c db.attempts ∧ o ≠ .running ∧
      (∀ j ∈ db.jobs, Edge j (f j) ∧ ∀ a ∈ db.attemptsOf j.id, a.outcome = .running →
        (sel a = true ↔ (f j).status ≠ .running)) ∧
      ∀ j ∈ new, Fresh j ∧ j.id ∉ db.jobs.map Job.id

/-- A transaction that leaves the attempts alone and keeps running jobs running. -/
theorem AttemptsOk.logStep_keep {issued : List ClaimedJob} {db db' : Db} (h : AttemptsOk issued db) (f : Job → Job)
    (new : Option Job) (hjobs : db'.jobs = db.jobs.map f ++ new.toList) (hatt : db'.attempts = db.attempts)
    (hf : ∀ j ∈ db.jobs, Edge j (f j) ∧ (j.status = .running → (f j).status = .running))
    (hnew : ∀ j ∈ new, Fresh j ∧ j.id ∉ db.jobs.map Job.id) : LogStep db db' := by
  refine ⟨f, new, 0, fun _ => false, .failed, none, hjobs, ?_, by simp,
    fun j hj => ⟨(hf j hj).1, fun a ha harun => ?_⟩, hnew⟩
  · rw [hatt, closeAttempts_eq_self fun _ _ _ => rfl]
  · have := (hf j hj).2 ((h.log j hj).running a ha harun).2
    simp [this]

/-- A transaction that leaves the attempts alone and changes no lease. -/
theorem AttemptsOk.logStep_same {issued : List ClaimedJob} {db db' : Db} (h : AttemptsOk issued db)
    {p : Job → Bool} {f : Job → Job} (hjobs : db'.jobs = Table.update p f db.jobs) (hatt : db'.attempts = db.attempts)
    (hf : ∀ j, SameLease j (f j)) : LogStep db db' := by
  refine h.logStep_keep (fun j => if p j then f j else j) none (by simpa [Table.update] using hjobs) hatt
    (fun j _ => ?_) (by simp)
  split_ifs
  · exact ⟨Or.inl (hf j), fun hrun => (hf j).2.1.trans hrun⟩
  · exact ⟨.refl j, id⟩

/-- A transaction that releases the rows `p` and closes their running attempts, and those only. -/
theorem AttemptsOk.logStep_release {issued : List ClaimedJob} {db db' : Db} (h : AttemptsOk issued db)
    {p : Job → Bool} {f : Job → Job} {now : ℕ} {sel : Attempt → Bool} {o : Outcome} {c : Option String}
    (hjobs : db'.jobs = Table.update p f db.jobs) (hatt : db'.attempts = closeAttempts now sel o c db.attempts)
    (ho : o ≠ .running) (hf : ∀ j ∈ db.jobs, p j = true → Released j (f j))
    (hsel : ∀ j ∈ db.jobs, ∀ a ∈ db.attemptsOf j.id, a.outcome = .running → sel a = p j) : LogStep db db' := by
  refine ⟨fun j => if p j then f j else j, none, now, sel, o, c, by simpa [Table.update] using hjobs, hatt, ho,
    fun j hj => ?_, by simp⟩
  beta_reduce
  by_cases hp : p j = true
  · rw [if_pos hp]
    have hrel := hf j hj hp
    refine ⟨Or.inr hrel, fun a ha harun => ?_⟩
    rw [hsel j hj a ha harun]
    exact iff_of_true hp hrel.2.2.2.2.2.2.1
  · rw [if_neg hp]
    refine ⟨.refl j, fun a ha harun => ?_⟩
    rw [hsel j hj a ha harun]
    exact iff_of_false hp (not_not_intro ((h.log j hj).running a ha harun).2)

/-- Such a transaction keeps the invariant. -/
theorem AttemptsOk.step {issued : List ClaimedJob} {db db' : Db} (h : AttemptsOk issued db) (hs : LogStep db db') :
    AttemptsOk issued db' := by
  obtain ⟨f, new, now, sel, o, c, hjobs, hatt, ho, hf, hnew⟩ := hs
  have origin : ∀ a ∈ db'.attempts, ∃ b ∈ db.attempts, a.jobId = b.jobId ∧ a.attemptId = b.attemptId ∧
      (a.outcome = .running → b.outcome = .running) := fun a ha => by
    rw [hatt] at ha
    obtain ⟨b, hb, h1, -, h2, h3⟩ := mem_closeAttempts ha
    exact ⟨b, hb, h1, h2, fun hr => h3.elim (fun h3 => h3.1 ▸ hr) fun h3 => absurd (h3.2 ▸ hr) ho⟩
  -- a fresh job has no rows yet
  have unknown : ∀ j ∈ new, ∀ a ∈ db'.attempts, a.jobId ≠ j.id := fun j hj a ha hid => by
    obtain ⟨b, hb, hb', -⟩ := origin a ha
    exact (hnew j hj).2 (hid ▸ hb' ▸ h.known b hb)
  constructor
  · intro j' hj'
    rw [hjobs] at hj'
    rcases List.mem_append.mp hj' with hj' | hj'
    · obtain ⟨j, hj, rfl⟩ := List.mem_map.mp hj'
      obtain ⟨hedge, hsel⟩ := hf j hj
      have hlog := h.log j hj
      have hatts : (f j).attempts = j.attempts := hedge.elim (fun e => e.2.2.1) fun e => e.2.2.1
      rw [hedge.id, hatts, attemptsOf_close hatt]
      by_cases hrun : (f j).status = .running
      · have hsame : j.status = .running := by
          rcases hedge with e | e
          · rw [← e.2.1]; exact hrun
          · exact absurd hrun e.2.2.2.2.2.2.1
        rw [closeAttempts_eq_self fun a ha harun => by
          simpa using mt (hsel a ha harun).mp (not_not_intro hrun)]
        exact hlog.congr (by simp [hrun, hsame])
      · exact (hlog.close ho fun a ha harun => (hsel a ha harun).mpr hrun).congr (by simp [hrun])
    · have hmem : j' ∈ new := by simpa using hj'
      have hfresh := (hnew j' hmem).1
      have hnil : db'.attemptsOf j'.id = [] :=
        List.filter_eq_nil_iff.mpr fun a ha => by simpa using unknown j' hmem a ha
      rw [hnil, hfresh.2.2.1]
      exact LogOk.empty.congr (by rcases hfresh.2.2.2.2 with e | e <;> simp [e])
  · intro j' hj' a ha harun c' hc'
    obtain ⟨ha, hid⟩ := mem_attemptsOf.mp ha
    obtain ⟨b, hb, h1, h2, h3⟩ := origin a ha
    rw [hjobs] at hj'
    rcases List.mem_append.mp hj' with hj' | hj'
    · obtain ⟨j, hj, rfl⟩ := List.mem_map.mp hj'
      rw [(hf j hj).1.id] at hid hc'
      rw [h2]
      exact h.holder j hj b (mem_attemptsOf.mpr ⟨hb, h1.symm.trans hid⟩) (h3 harun) c' hc'
    · exact absurd hid (unknown j' (by simpa using hj') a ha)
  · intro a ha
    obtain ⟨b, hb, h1, -⟩ := origin a ha
    obtain ⟨j, hj, hid⟩ := List.mem_map.mp (h.known b hb)
    rw [h1, ← hid, ← (hf j hj).1.id, hjobs, List.map_append]
    exact List.mem_append_left _ (List.mem_map_of_mem (List.mem_map_of_mem hj))

/-! ### The transactions -/

theorem AttemptsOk.of_eq {issued : List ClaimedJob} {db db' : Db} (h : AttemptsOk issued db) (hj : db'.jobs = db.jobs)
    (ha : db'.attempts = db.attempts) : AttemptsOk issued db' :=
  h.step (h.logStep_keep (fun j => j) none (by simpa using hj) ha (fun j _ => ⟨.refl j, fun hr => hr⟩)
    (by simp))

/-- The sweep closes the attempts of the jobs it fails. -/
theorem AttemptsOk.exhaust {issued : List ClaimedJob} {db : Db} (h : AttemptsOk issued db)
    (hids : (db.jobs.map Job.id).Nodup) (now : ℕ) (tasks : List JobKind) :
    AttemptsOk issued (exhaust now tasks db) := by
  refine h.step (h.logStep_release rfl rfl (by simp) (fun j _ hp => ?_) fun j hj a ha harun => ?_)
  · simp only [exhausted, Bool.and_eq_true, decide_eq_true_eq] at hp
    exact released_failExhausted hp.1.1.1
  · have hid := (mem_attemptsOf.mp ha).2
    have hlast := ((h.log j hj).running a ha harun).1
    rw [Bool.eq_iff_iff, List.any_eq_true]
    constructor
    · rintro ⟨k, hk, hsel⟩
      obtain ⟨hk, hex⟩ := List.mem_filter.mp hk
      simp only [Bool.and_eq_true, decide_eq_true_eq] at hsel
      obtain rfl := List.inj_on_of_nodup_map hids hj hk (hid.symm.trans hsel.1)
      exact hex
    · exact fun hex => ⟨j, List.mem_filter.mpr ⟨hj, hex⟩, by simp [hid, hlast]⟩

/-- A finalisation closes the attempt of the job it finishes or requeues. -/
theorem AttemptsOk.finish {w : World} (h : AttemptsOk w.issued w.db) (hq : QueueInv w) {c : ClaimedJob}
    (hc : c ∈ w.issued) {db' : Db} {f : Job → Job} {o : Outcome} {code : Option String}
    (hf : ∀ j : Job, j.status = .running → Released j (f j))
    (hjobs : db'.jobs = Table.update (holdsLease w.now c) f w.db.jobs) (ho : o ≠ .running)
    (hatt : db'.attempts = closeClaim w.now c o code w.db) (hheld : ∃ r ∈ w.db.jobs, holdsLease w.now c r = true) :
    AttemptsOk w.issued db' := by
  obtain ⟨r, hr, hl⟩ := hheld
  obtain ⟨hlatest, -, hatts, -⟩ := hq.jobs.honoured hc hr hl
  have hrid := (holdsLease_iff.mp hl).1
  refine h.step (h.logStep_release hjobs hatt ho (fun j _ hp => hf j (holdsLease_iff.mp hp).2.1) fun j hj a ha harun => ?_)
  have hid := (mem_attemptsOf.mp ha).2
  rw [Bool.eq_iff_iff]
  constructor
  · intro hsel
    simp only [Bool.and_eq_true, decide_eq_true_eq] at hsel
    obtain rfl := List.inj_on_of_nodup_map hq.jobs.ids hj hr (hid.symm.trans (hsel.1.1.trans hrid.symm))
    exact hl
  · intro hp
    have hjid := (holdsLease_iff.mp hp).1
    obtain rfl := List.inj_on_of_nodup_map hq.jobs.ids hj hr (hjid.trans hrid.symm)
    have hlast := ((h.log j hj).running a ha harun).1
    have hheld := h.holder j hj a ha harun c (hjid ▸ hlatest)
    simp [hid, hjid, hlast, hatts, hheld]

/-- Cancelling closes the attempt of a running job. -/
theorem AttemptsOk.cancel {issued : List ClaimedJob} {db db' : Db} (h : AttemptsOk issued db)
    (hids : (db.jobs.map Job.id).Nodup) {now : ℕ} {user jobId : String} {row : Job}
    (hc : cancelOwnedJob now user jobId db = .ok (db', row)) : AttemptsOk issued db' := by
  rcases cancelOwnedJob_eq_ok hc with rfl | ⟨found, hmem, howner, hfid, hlive, hjobs, hatt⟩
  · exact h
  have unique : ∀ j ∈ db.jobs, j.id = jobId → j = found := fun j hj hid =>
    List.inj_on_of_nodup_map hids hj hmem (hid.trans hfid.symm)
  refine h.step (h.logStep_release hjobs hatt (by simp) (fun j hj hp => ?_) fun j hj a ha harun => ?_)
  · simp only [Bool.and_eq_true, decide_eq_true_eq] at hp
    exact released_cancel (unique j hj hp.2 ▸ hlive)
  · have hid := (mem_attemptsOf.mp ha).2
    obtain ⟨hlast, hrun⟩ := (h.log j hj).running a ha harun
    rw [Bool.eq_iff_iff]
    simp only [Bool.and_eq_true, decide_eq_true_eq, hid]
    constructor
    · rintro ⟨⟨-, hjid⟩, -⟩
      obtain rfl := unique j hj hjid
      exact ⟨howner, hjid⟩
    · rintro ⟨-, hjid⟩
      obtain rfl := unique j hj hjid
      exact ⟨⟨hrun, hjid⟩, hlast⟩

/-- A created job starts without attempts. -/
theorem AttemptsOk.create {issued : List ClaimedJob} {db db' : Db} (h : AttemptsOk issued db) {job : Job} {flag : Bool}
    (hc : Created db db' job flag) : AttemptsOk issued db' := by
  obtain ⟨hatt, ⟨hjobs, -⟩ | ⟨hjobs, hfresh, hid, -⟩⟩ := hc
  · exact h.of_eq hjobs hatt
  · exact h.step (h.logStep_keep (fun j => j) (some job) (by simpa using hjobs) hatt
      (fun j _ => ⟨.refl j, fun hr => hr⟩) fun k hk => Option.some.inj hk ▸ ⟨hfresh, hid⟩)

/-- What a consent request does: nothing to the jobs, unless it is a withdrawal that takes effect. -/
theorem recordConsent_eq_ok {env : GatewayEnv} {r : Readings} {now : ℕ} {user : String} {input : ConsentInput}
    {db db' : Db} {e : ConsentEvent} (h : recordConsent env r now user input db = .ok (db', e)) :
    db'.attempts = db.attempts ∧
      db'.jobs = if withdraws env r user input db then
          Table.update (withdrawalHits user input.purpose input.subjectId) (Job.withdraw now input.purpose) db.jobs
        else db.jobs := by
  unfold recordConsent at h
  split at h
  · cases h
  · rename_i href
    split at h
    · rename_i hrep
      split_ifs at h
      obtain ⟨rfl, -⟩ := Prod.mk.inj (Except.ok.inj h)
      simp [withdraws, hrep]
    · rename_i hrep
      dsimp only at h
      split at h
      · rename_i hact
        obtain ⟨rfl, -⟩ := Prod.mk.inj (Except.ok.inj h)
        simp [withdraws, href, hrep, hact, applyWithdrawal]
      · rename_i hact
        obtain ⟨rfl, -⟩ := Prod.mk.inj (Except.ok.inj h)
        simp [withdraws, hact]

/-- A withdrawal that takes effect is not refused. -/
theorem recordConsent_of_withdraws {env : GatewayEnv} {r : Readings} (now : ℕ) {user : String} {input : ConsentInput}
    {db : Db} (h : withdraws env r user input db = true) :
    ∃ db' e, recordConsent env r now user input db = .ok (db', e) := by
  simp only [withdraws, Bool.and_eq_true, decide_eq_true_eq, Option.isNone_iff_eq_none] at h
  exact ⟨_, _, by rw [recordConsent, h.1.2, h.2, h.1.1]⟩

/-- A withdrawal that spares running jobs cancels queued ones, which have no open attempt. -/
theorem AttemptsOk.consent {issued : List ClaimedJob} {db db' : Db} (h : AttemptsOk issued db) {env : GatewayEnv}
    {r : Readings} {now : ℕ} {user : String} {input : ConsentInput} {e : ConsentEvent}
    (hc : recordConsent env r now user input db = .ok (db', e))
    (hspare : withdraws env r user input db = true →
      ∀ j ∈ db.jobs, withdrawalHits user input.purpose input.subjectId j = true → j.status ≠ .running) :
    AttemptsOk issued db' := by
  obtain ⟨hatt, hjobs⟩ := recordConsent_eq_ok hc
  split_ifs at hjobs with hw
  · refine h.step (h.logStep_keep (fun j => if withdrawalHits user input.purpose input.subjectId j then
      j.withdraw now input.purpose else j) none (by simpa [Table.update] using hjobs) hatt (fun j hj => ?_) (by simp))
    split_ifs with hhit
    · refine ⟨Or.inr (released_withdraw ?_), fun hr => absurd hr (hspare hw j hj hhit)⟩
      simp only [withdrawalHits, Bool.and_eq_true, Bool.or_eq_true, decide_eq_true_eq] at hhit
      exact hhit.1.2
    · exact ⟨.refl j, fun hr => hr⟩
  · exact h.of_eq hjobs hatt

theorem takeClaim_attempts {now : ℕ} {token attemptId : String} {prior : Job} {db db' : Db}
    (h : takeClaim now token attemptId prior db = some db') :
    db'.attempts = closeAttempts now
        (fun a => prior.status = .running && a.jobId = prior.id && a.attempt = prior.attempts) .expired
        (some "attempt-lease-expired") db.attempts ++
      [{ jobId := prior.id, attempt := prior.attempts + 1, attemptId, outcome := .running, errorCode := none,
         startedAt := now, finishedAt := none }] := by
  obtain ⟨as, has, h⟩ := Option.bind_eq_some_iff.mp h
  obtain rfl := Option.some.inj h
  unfold insertAttempt at has
  split_ifs at has
  exact (Option.some.inj has).symm

/-- A claim closes the attempt whose lease ran out, if any, and opens the next one. -/
theorem AttemptsOk.start {issued : List ClaimedJob} {db db' : Db} (h : AttemptsOk issued db)
    (hids : (db.jobs.map Job.id).Nodup) {now : ℕ} {token attemptId : String} {prior : Job} (hp : prior ∈ db.jobs)
    (htake : takeClaim now token attemptId prior db = some db') :
    AttemptsOk (prior.claimed now token attemptId :: issued) db' := by
  have hjobs := takeClaim_jobs htake
  have hatt := takeClaim_attempts htake
  have hpid : (prior.claimed now token attemptId).id = prior.id := rfl
  have rows (id : String) : db'.attemptsOf id = closeAttempts now
      (fun a => prior.status = .running && a.jobId = prior.id && a.attempt = prior.attempts) .expired
      (some "attempt-lease-expired") (db.attemptsOf id) ++ if prior.id = id then
        [{ jobId := prior.id, attempt := prior.attempts + 1, attemptId, outcome := .running, errorCode := none,
           startedAt := now, finishedAt := none }] else [] := by
    rw [Db.attemptsOf, hatt, List.filter_append]
    congr 1
    · refine Table.filter_update ?_ _
      exact fun _ _ => rfl
    · by_cases hid : prior.id = id <;> simp [hid]
  -- the rows of the other jobs stay as they are
  have other {j : Job} (hne : j.id ≠ prior.id) : db'.attemptsOf j.id = db.attemptsOf j.id := by
    rw [rows, if_neg (Ne.symm hne), List.append_nil]
    refine closeAttempts_eq_self fun a ha _ => ?_
    simp [(mem_attemptsOf.mp ha).2, hne]
  have closed : LogOk (closeAttempts now
      (fun a => prior.status = .running && a.jobId = prior.id && a.attempt = prior.attempts) .expired
      (some "attempt-lease-expired") (db.attemptsOf prior.id)) prior.attempts False :=
    (h.log prior hp).close (by simp) fun a ha harun => by
      obtain ⟨hlast, hrun⟩ := (h.log prior hp).running a ha harun
      simp [(mem_attemptsOf.mp ha).2, hlast, hrun]
  have origin : ∀ j' ∈ db'.jobs, (j' = prior.startAttempt now token) ∨ (j' ∈ db.jobs ∧ j'.id ≠ prior.id) := by
    intro j' hj'
    rw [hjobs] at hj'
    obtain ⟨j, hj, rfl⟩ := Table.mem_update.mp hj'
    by_cases hid : j.id = prior.id
    · obtain rfl := List.inj_on_of_nodup_map hids hj hp hid
      simp
    · exact Or.inr ⟨by simpa [hid] using hj, by simp [hid]⟩
  constructor
  · intro j' hj'
    rcases origin j' hj' with rfl | ⟨hj, hne⟩
    · have hid : (prior.startAttempt now token).id = prior.id := rfl
      rw [hid, rows, if_pos rfl]
      exact (closed.append rfl rfl).congr (by simp [Job.startAttempt])
    · rw [other hne]
      exact h.log j' hj
  · intro j' hj' a ha harun c hc
    rcases origin j' hj' with rfl | ⟨hj, hne⟩
    · have hid : (prior.startAttempt now token).id = prior.id := rfl
      rw [hid, rows, if_pos rfl] at ha
      rw [hid, latestClaim_cons, if_pos hpid] at hc
      obtain rfl := Option.some.inj hc
      rcases List.mem_append.mp ha with ha | ha
      · exact (closed.running a ha harun).2.elim
      · rw [List.mem_singleton.mp ha]
        rfl
    · rw [latestClaim_cons, if_neg (hpid ▸ Ne.symm hne)] at hc
      rw [other hne] at ha
      exact h.holder j' hj a ha harun c hc
  · intro a ha
    have hkeep : ∀ r, (decide (r.id = prior.id)) = true → (Job.startAttempt now token r).id = r.id := fun _ _ => rfl
    rw [hjobs, Table.map_update hkeep]
    rw [hatt] at ha
    rcases List.mem_append.mp ha with ha | ha
    · obtain ⟨b, hb, h1, -⟩ := mem_closeAttempts ha
      exact h1 ▸ h.known b hb
    · rw [List.mem_singleton.mp ha]
      exact List.mem_map_of_mem hp

/-- **Step lemma**: a transaction that spares running jobs keeps the invariant. -/
theorem exec_attemptsOk (env : GatewayEnv) (w : World) (op : Op) (hq : QueueInv w) (h : AttemptsOk w.issued w.db)
    (hadm : admissible w op) (hspare : SparesRunning env w op) :
    AttemptsOk (exec env w op).issued (exec env w op).db := by
  have hids := hq.jobs.ids
  cases op with
  | tick => exact h
  | createJob r user id input =>
    rw [exec]
    split
    · exact h
    · rename_i hc
      exact h.create (createJob_eq_ok hc)
  | materializeFixture id persisted =>
    rw [exec]
    split_ifs
    · exact h.step (h.logStep_same rfl rfl fun _ => ⟨rfl, rfl, rfl, rfl, rfl, rfl⟩)
    · exact h
  | claimOne tasks pick token attemptId =>
    rw [exec]
    cases hcl : claimOne w.now tasks pick token attemptId w.db with
    | mk db c =>
      have hswept := h.exhaust hids w.now tasks
      rcases claimOne_eq hcl with ⟨rfl, rfl | rfl⟩ | ⟨prior, hp, -, htake, rfl⟩
      · exact h
      · exact hswept
      · exact hswept.start ((exhaust_jobsStep w.now tasks w.db).ids hids) hp htake
  | readAuthority c =>
    rw [exec]
    split_ifs <;> exact h
  | commitSucceeded c o final =>
    rw [exec]
    split_ifs
    · split
      · rename_i db hcs
        obtain ⟨hheld, hjobs, hatt⟩ := commitSucceeded_eq_true hcs
        have hmid : AttemptsOk w.issued
            { db with jobs := Table.update (holdsLease w.now c) (Job.succeed w.now o) w.db.jobs } :=
          h.finish hq hadm (fun _ hr => released_succeed hr) rfl (by simp) hatt hheld
        exact hmid.step (hmid.logStep_same hjobs rfl fun _ => ⟨rfl, rfl, rfl, rfl, rfl, rfl⟩)
      · exact h
    · exact h
  | markFailed c e code =>
    rw [exec]
    split
    · rename_i hmf
      obtain ⟨hheld, hjobs, hatt⟩ := markFailed_eq_true hmf
      exact h.finish hq hadm (fun _ hr => released_fail hr) hjobs (by simp) hatt hheld
    · exact h
  | markRetryable c callId e code retryAfter =>
    rw [exec]
    split
    · rename_i hmr
      obtain ⟨hheld, hjobs, o, ho, hatt⟩ := markRetryable_eq_some hmr
      exact h.finish hq hadm (fun _ hr => released_retry hr) hjobs ho hatt hheld
    · exact h
  | recordProviderCall c callId ev =>
    rw [exec]
    unfold recordProviderCall
    dsimp only
    split_ifs
    · exact h.step (h.logStep_same rfl rfl fun _ => ⟨rfl, rfl, rfl, rfl, rfl, rfl⟩)
    · exact h
  | recordProviderCancelled jobId callId =>
    exact h.step (h.logStep_same rfl rfl fun _ => ⟨rfl, rfl, rfl, rfl, rfl, rfl⟩)
  | cancelOwnedJob user jobId =>
    rw [exec]
    split
    · exact h
    · rename_i hc
      exact h.cancel hids hc
  | recordConsent r user input =>
    rw [exec]
    split
    · exact h
    · rename_i hc
      exact h.consent hc hspare

/-- A withdrawal that hits a running job leaves its attempt open. -/
theorem not_consistent_of_withdrawal (env : GatewayEnv) (w : World) (op : Op) (h : AttemptsOk w.issued w.db)
    (hspare : ¬ SparesRunning env w op) : ¬ AttemptLogConsistent (exec env w op) := by
  cases op with
  | recordConsent r user input =>
    simp only [SparesRunning, ne_eq, Classical.not_imp, not_forall, not_not] at hspare
    obtain ⟨hw, j, hj, hhit, hrun⟩ := hspare
    obtain ⟨db', e, hc⟩ := recordConsent_of_withdraws w.now hw
    obtain ⟨hatt, hjobs⟩ := recordConsent_eq_ok hc
    rw [if_pos hw] at hjobs
    rw [exec, hc]
    intro hcons
    have hmem : j.withdraw w.now input.purpose ∈ db'.jobs := by
      rw [hjobs]
      exact Table.mem_update.mpr ⟨j, hj, if_pos hhit⟩
    obtain ⟨a, ha, harun⟩ := (h.log j hj).opened hrun
    have hlast := ((h.log j hj).running a ha harun).1
    have hopen := (hcons _ hmem).2.2.mp ⟨a, ?_, hlast, harun⟩
    · cases hopen
    · rw [mem_attemptsOf] at ha ⊢
      exact ⟨hatt ▸ ha.1, ha.2⟩
  | _ => exact absurd trivial hspare

theorem attemptsOk_empty : AttemptsOk World.empty.issued World.empty.db where
  log := by simp [World.empty, Db.empty]
  holder := by simp [World.empty, Db.empty]
  known := by simp [World.empty, Db.empty]

/-- **Run lemma**: the invariant holds in every state reached while running jobs are spared. -/
theorem reach_attemptsOk {env : GatewayEnv} {w : World} (hw : (system env).Reach (SparesRunning env) w) :
    QueueInv w ∧ AttemptsOk w.issued w.db := by
  refine System.Reach.invariant (I := fun v => QueueInv v ∧ AttemptsOk v.issued v.db) ⟨inv_empty, attemptsOk_empty⟩ ?_ hw
  rintro s op s' ⟨hq, h⟩ hok ⟨hadm, rfl⟩
  exact ⟨exec_inv env s op hq hadm, exec_attemptsOk env s op hq h hadm hok⟩

/-- **Attempt log consistency**: as long as no withdrawal hits a running job, the attempt log of
every state reached is consistent, and the first withdrawal that does breaks it. -/
theorem attemptLog_consistent (env : GatewayEnv) (w : World) (hw : (system env).Reach (SparesRunning env) w) :
    AttemptLogConsistent w ∧
      ∀ op, admissible w op → (AttemptLogConsistent (exec env w op) ↔ SparesRunning env w op) := by
  obtain ⟨hq, h⟩ := reach_attemptsOk hw
  refine ⟨h.consistent, fun op hadm => ⟨fun hc => ?_, fun hs => (exec_attemptsOk env w op hq h hadm hs).consistent⟩⟩
  by_contra hs
  exact not_consistent_of_withdrawal env w op h hs hc

/-- The log is consistent after the photoscan job was claimed and then cancelled by its owner. -/
theorem attemptLog_consistent_photoscan :
    AttemptLogConsistent (run sampleEnv .empty (photoscanClaimed ++ [.cancelOwnedJob "user-1" "job-1"])) ∧
      (run sampleEnv .empty (photoscanClaimed ++ [.cancelOwnedJob "user-1" "job-1"])).db.attempts.map Attempt.outcome =
        [.cancelled] :=
  ⟨(attemptLog_consistent sampleEnv _ (steps_run (by decide))).1, by decide⟩

/-- Withdrawing the consent of the claimed photoscan job cancels the job and leaves its attempt
running. -/
theorem attemptLog_broken_by_withdrawal :
    (system sampleEnv).Reachable (run sampleEnv .empty (photoscanClaimed ++ [photoConsent .withdraw])) ∧
      ¬ AttemptLogConsistent (run sampleEnv .empty (photoscanClaimed ++ [photoConsent .withdraw])) := by
  refine ⟨steps_run (by decide), ?_⟩
  unfold AttemptLogConsistent
  decide

end Forge.Queue
