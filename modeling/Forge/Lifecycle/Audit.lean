import Forge.Lifecycle.Suppression

/-!
# The audit of deleted backups

What `deleteExpiredBackups` files and returns, for any number of overlapping runs. A
commit changes the status of the backup only while it is still being deleted, but
files its event and returns the id in any case. So the audit is exact in every run
of the system whose commits all find their backup being deleted (`backupAudit`). A
run whose lease has expired while its adapter was still at work breaks it: another
run claims the backup and completes it, and then the first one commits as well.
-/

namespace Forge.Lifecycle

/-- The event says that the backup `id` was deleted. -/
def LifecycleEvent.deletes (env : Env) (id : String) (e : LifecycleEvent) : Bool :=
  e.eventType = .backupDeleted && e.subjectKind = some .backup && e.subjectDigest = some (backupDigest env id)

/-- How many events say that the backup `id` was deleted. -/
def Db.deletionEvents (env : Env) (db : Db) (id : String) : ℕ :=
  db.dataLifecycleEvents.countP (LifecycleEvent.deletes env id)

/-- The catalog has the backup `id` as deleted. -/
def Db.isDeleted (db : Db) (id : String) : Bool :=
  (Table.find BackupRecord.id id db.backupRecords).any fun b => b.status = .deleted

/-- What the audit of deleted backups promises. -/
structure BackupAudit (env : Env) (w : World) : Prop where
  once : ∀ id, w.db.deletionEvents env id ≤ 1
  exactly : ∀ b ∈ w.db.backupRecords, w.db.deletionEvents env b.id = 1 ↔ b.status = .deleted
  returned : ∀ i r, w.runs[i]? = some r → ∀ id ∈ r.deleted, (i, id) ∈ w.finalized

/-- The commit of run `i` finds its backup being deleted. -/
def stillDeleting (w : World) (i : ℕ) : Bool :=
  match w.runs[i]? with
  | none => true
  | some r =>
    match r.stage with
    | .committing b => w.db.backupRecords.any fun c => c.id = b.id && c.status = .deleting
    | _ => true

/-- No commit comes too late, and no sweep removes old events. -/
def Auditable (w : World) : Op → Prop
  | .commit i _ none => stillDeleting w i = true
  | .sweep _ _ execute _ => execute = false
  | _ => True

instance (w : World) : (op : Op) → Decidable (Auditable w op)
  | .commit i _ none => inferInstanceAs (Decidable (stillDeleting w i = true))
  | .sweep _ _ execute _ => inferInstanceAs (Decidable (execute = false))
  | .commit _ _ (some _) | .ambient _ | .registerBackup _ _ _ _ | .deleteAccount _ _ _
  | .evaluateRestoreCandidate _ _ _ _ | .startRun _ _ | .claim _ | .adapter _ _ | .markFailed _
  | .reportFailed _ _ => isTrue trivial

/-! ### Steps that delete no backup -/

/-- Nothing that the audit looks at has changed. -/
structure AuditKept (env : Env) (db db' : Db) : Prop where
  events : ∀ id, db'.deletionEvents env id = db.deletionEvents env id
  deleted : ∀ id, db'.isDeleted id = db.isDeleted id

theorem AuditKept.refl (env : Env) (db : Db) : AuditKept env db db := ⟨fun _ => rfl, fun _ => rfl⟩

theorem deletionEvents_append {env : Env} {db db' : Db} {e : LifecycleEvent}
    (h : db'.dataLifecycleEvents = db.dataLifecycleEvents ++ [e]) (id : String) :
    db'.deletionEvents env id = db.deletionEvents env id + if e.deletes env id then 1 else 0 := by
  rw [Db.deletionEvents, h, List.countP_append, List.countP_singleton, Db.deletionEvents]

/-- An event of another type, beside a catalog that has the same copies as deleted. -/
theorem AuditKept.of_event {env : Env} {db db' : Db} {e : LifecycleEvent}
    (h : db'.dataLifecycleEvents = db.dataLifecycleEvents ++ [e]) (ht : e.eventType ≠ .backupDeleted)
    (hd : ∀ id, db'.isDeleted id = db.isDeleted id) : AuditKept env db db' := by
  refine ⟨fun id => ?_, hd⟩
  rw [deletionEvents_append h, if_neg (by simp [LifecycleEvent.deletes, ht]), Nat.add_zero]

/-- Copies that are updated from one open status to another. -/
theorem isDeleted_update {db db' : Db} {p : BackupRecord → Bool} {f : BackupRecord → BackupRecord}
    (hr : db'.backupRecords = Table.update p f db.backupRecords) (hid : ∀ b, p b = true → (f b).id = b.id)
    (hp : ∀ b, p b = true → b.status ≠ .deleted ∧ (f b).status ≠ .deleted) (id : String) :
    db'.isDeleted id = db.isDeleted id := by
  rw [Db.isDeleted, hr, Table.find_update hid, Db.isDeleted]
  cases Table.find BackupRecord.id id db.backupRecords with
  | none => rfl
  | some b =>
    by_cases hb : p b = true
    · simp [hb, hp b hb]
    · simp [hb]

theorem stepClaim_audit (env : Env) (db : Db) (r : DeletionRun) : AuditKept env db (stepClaim db r).1 := by
  unfold stepClaim
  split
  · rename_i candidate due hstage hdue
    have hclaim : AuditKept env db (claimBackup r.now candidate.id db).1 :=
      ⟨fun _ => rfl, isDeleted_update rfl (fun _ _ => rfl) fun b hb => by
        refine ⟨fun hd => ?_, by simp [BackupRecord.claimed]⟩
        simp [BackupRecord.claimable, hd] at hb⟩
    split
    · rename_i db' b hc
      rw [hc] at hclaim
      exact hclaim
    · rename_i db' hc
      rw [hc] at hclaim
      exact hclaim
  · exact .refl env db

theorem stepMarkFailed_audit (env : Env) (db : Db) (r : DeletionRun) : AuditKept env db (stepMarkFailed db r).1 := by
  unfold stepMarkFailed
  split
  · refine ⟨fun _ => rfl, isDeleted_update rfl (fun _ _ => rfl) fun b hb => ?_⟩
    simp only [Bool.and_eq_true, decide_eq_true_eq] at hb
    exact ⟨by simp [hb.2], by simp [BackupRecord.failed]⟩
  · exact .refl env db

theorem stepReportFailed_audit (env : Env) (eventId : String) (db : Db) (r : DeletionRun) :
    AuditKept env db (stepReportFailed env eventId db r).1 := by
  unfold stepReportFailed
  split
  · split
    · rename_i db' he
      obtain ⟨rfl, -⟩ := insertEvent_eq_ok he
      exact .of_event rfl (by simp [runEvent]) fun _ => rfl
    · exact .refl env db
  · exact .refl env db

/-! ### The commit -/

/-- One event for each deleted backup, and none for the others. -/
def Counted (env : Env) (db : Db) : Prop := ∀ id, db.deletionEvents env id = if db.isDeleted id then 1 else 0

theorem AuditKept.counted {env : Env} {db db' : Db} (h : AuditKept env db db') (hc : Counted env db) :
    Counted env db' := fun id => by rw [h.events, h.deleted, hc]

/-- A commit that finds its backup being deleted files the first event about it. -/
theorem commitDeletion_counted {env : Env} (hsha : Function.Injective env.sha256) {eventId : String} {now : ℤ}
    {b c : BackupRecord} {db db' : Db} (hk : db.Keyed) (hc : c ∈ db.backupRecords) (hid : c.id = b.id)
    (hst : c.status = .deleting) (h : commitDeletion env eventId now b db = .ok db') (hcount : Counted env db) :
    Counted env db' := by
  obtain ⟨-, hr, -, he, -⟩ := commitDeletion_eq_ok h
  have hfind : Table.find BackupRecord.id b.id db.backupRecords = some c := (Table.find_eq_some_iff hk).mpr ⟨hc, hid⟩
  have hkeep : ∀ r : BackupRecord, (decide (r.id = b.id) && decide (r.status = .deleting)) = true →
      (r.completed now).id = r.id := fun _ _ => rfl
  intro id
  rw [deletionEvents_append he, Db.isDeleted, hr, Table.find_update hkeep, hcount id]
  by_cases heq : id = b.id
  · subst heq
    simp [Db.isDeleted, hfind, hid, hst, LifecycleEvent.deletes, runEvent, BackupRecord.completed]
  · have hdigest : backupDigest env b.id ≠ backupDigest env id := fun hd => heq (by
      simpa using (hsha hd).symm)
    have hsame : ((Table.find BackupRecord.id id db.backupRecords).map fun r =>
        if (r.id = b.id && r.status = .deleting) = true then r.completed now else r) =
        Table.find BackupRecord.id id db.backupRecords := by
      cases hf : Table.find BackupRecord.id id db.backupRecords with
      | none => rfl
      | some r => simp [(Table.find_some hf).2, heq]
    have hother : (runEvent env eventId .backupDeleted "retention-expiry" [] now b).deletes env id = false := by
      simp [LifecycleEvent.deletes, runEvent, hdigest]
    rw [hsame, hother, if_neg Bool.false_ne_true, Nat.add_zero, Db.isDeleted]

/-- Such a commit changes the status of its backup. -/
theorem commitDeletion_newlyDeleted {env : Env} {eventId : String} {now : ℤ} {b c : BackupRecord} {db db' : Db}
    (hc : c ∈ db.backupRecords) (hid : c.id = b.id) (hst : c.status = .deleting)
    (h : commitDeletion env eventId now b db = .ok db') : b.id ∈ newlyDeleted db db' := by
  obtain ⟨-, hr, -⟩ := commitDeletion_eq_ok h
  have hdone : c.completed now ∈ db'.backupRecords := by
    rw [hr]
    exact Table.mem_update.mpr ⟨c, hc, if_pos (by simp [hid, hst])⟩
  refine List.mem_map.mpr ⟨c, List.mem_filter.mpr ⟨hc, ?_⟩, hid⟩
  have hany : (db'.backupRecords.any fun b' => b'.id = c.id && b'.status = .deleted) = true :=
    List.any_eq_true.mpr ⟨c.completed now, hdone, by simp [BackupRecord.completed]⟩
  simp [hst, hany]

/-! ### The invariant -/

/-- Ids that a run returns as deleted are among the changes it made. -/
def Returned (w : World) : Prop := ∀ i r, w.runs[i]? = some r → ∀ id ∈ r.deleted, (i, id) ∈ w.finalized

/-- A statement of a run returns ids it returned before and ids it has just deleted. -/
theorem Returned.stepRun {w : World} (h : Returned w) {i : ℕ} {f : Db → DeletionRun → Db × DeletionRun}
    (hf : ∀ r, w.runs[i]? = some r → ∀ id ∈ (f w.db r).2.deleted, id ∈ r.deleted ∨ id ∈ newlyDeleted w.db (f w.db r).1) :
    Returned (w.stepRun i f) := by
  unfold World.stepRun
  cases hr : w.runs[i]? with
  | none => exact h
  | some r =>
    intro j s hj id hid
    simp only at hj ⊢
    rw [List.getElem?_set] at hj
    split_ifs at hj with hij hlen
    · subst hij
      obtain rfl := Option.some.inj hj
      rcases hf r hr id hid with hold | hnew
      · exact List.mem_append_right _ (h i r hr id hold)
      · exact List.mem_append_left _ (List.mem_map_of_mem hnew)
    · exact List.mem_append_right _ (h j s hj id hid)

structure AuditInv (env : Env) (w : World) : Prop where
  lifecycle : LifecycleInv w
  counted : Counted env w.db
  returned : Returned w

theorem stepRun_counted {env : Env} {w : World} {i : ℕ} {f : Db → DeletionRun → Db × DeletionRun}
    (hc : Counted env w.db) (hf : ∀ r, w.runs[i]? = some r → Counted env (f w.db r).1) :
    Counted env (w.stepRun i f).db := by
  unfold World.stepRun
  cases hr : w.runs[i]? with
  | none => exact hc
  | some r => exact hf r hr

theorem stepClaim_deleted (db : Db) (r : DeletionRun) : (stepClaim db r).2.deleted = r.deleted := by
  unfold stepClaim
  split
  · split <;> rfl
  · rfl

theorem stepAdapter_deleted (outcome : Except (Option String) Unit) (r : DeletionRun) :
    (stepAdapter outcome r).deleted = r.deleted := by
  unfold stepAdapter
  split
  · split <;> rfl
  · rfl

theorem stepMarkFailed_deleted (db : Db) (r : DeletionRun) : (stepMarkFailed db r).2.deleted = r.deleted := by
  unfold stepMarkFailed
  split <;> rfl

theorem stepReportFailed_deleted (env : Env) (eventId : String) (db : Db) (r : DeletionRun) :
    (stepReportFailed env eventId db r).2.deleted = r.deleted := by
  unfold stepReportFailed
  split
  · split <;> rfl
  · rfl

/-- A commit that is not too late keeps the count. -/
theorem stepCommit_counted {env : Env} (hsha : Function.Injective env.sha256) {eventId : String} {fault : Option String}
    {w : World} {i : ℕ} {r : DeletionRun} (hk : w.db.Keyed) (hr : w.runs[i]? = some r)
    (hok : Auditable w (.commit i eventId fault)) (hc : Counted env w.db) :
    Counted env (stepCommit env eventId fault w.db r).1 := by
  unfold stepCommit
  split
  · rename_i b hstage
    split
    · exact hc
    · split
      · rename_i db' hcommit
        simp only [Auditable, stillDeleting, hr, hstage, List.any_eq_true, Bool.and_eq_true, decide_eq_true_eq] at hok
        obtain ⟨c, hm, hid, hst⟩ := hok
        exact commitDeletion_counted hsha hk hm hid hst hcommit hc
      · exact hc
  · exact hc

theorem stepCommit_returned {env : Env} {eventId : String} {fault : Option String} {w : World} {i : ℕ}
    {r : DeletionRun} (hr : w.runs[i]? = some r) (hok : Auditable w (.commit i eventId fault)) {id : String}
    (h : id ∈ (stepCommit env eventId fault w.db r).2.deleted) :
    id ∈ r.deleted ∨ id ∈ newlyDeleted w.db (stepCommit env eventId fault w.db r).1 := by
  unfold stepCommit at h ⊢
  split at h
  · rename_i b hstage
    split at h
    · exact .inl h
    · split at h
      · rename_i db' hcommit
        rcases List.mem_append.mp h with h | h
        · exact .inl h
        · simp only [Auditable, stillDeleting, hr, hstage, List.any_eq_true, Bool.and_eq_true,
            decide_eq_true_eq] at hok
          obtain ⟨c, hm, hid, hst⟩ := hok
          rw [List.mem_singleton.mp h]
          exact .inr (commitDeletion_newlyDeleted hm hid hst hcommit)
      · exact .inl h
  · exact .inl h

/-- Transactions outside the runs, and without an executed sweep, delete no backup. -/
theorem registerBackup_audit {env : Env} {id eventId : String} {now : ℤ} {input : RegisterInput} (db : Db) :
    AuditKept env db (committed db (registerBackup env id eventId now input db)) := by
  cases h : registerBackup env id eventId now input db with
  | error e => exact .refl env db
  | ok r =>
    obtain ⟨subjects, e, hfresh, hav, -, he, hdb⟩ | ⟨c, subjects, hdb⟩ := registerBackup_eq_ok h
    · simp only [committed, hdb]
      refine .of_event rfl (by simp [he]) fun k => ?_
      rw [Db.isDeleted, Table.find_append, Db.isDeleted]
      cases hf : Table.find BackupRecord.id k db.backupRecords with
      | some b => rfl
      | none =>
        rw [Option.none_or]
        by_cases hk : r.2.id = k
        · simp [Table.find, hk, hav]
        · simp [Table.find, hk]
    · simp only [committed, hdb]
      exact ⟨fun _ => rfl, fun _ => rfl⟩

theorem exec_counted {env : Env} (hsha : Function.Injective env.sha256) {w : World} {op : Op} (h : AuditInv env w)
    (hok : Auditable w op) : Counted env (exec env w op).db := by
  have hc := h.counted
  cases op with
  | ambient a => exact AuditKept.counted ⟨fun _ => rfl, fun _ => rfl⟩ hc
  | registerBackup id eventId now input => exact (registerBackup_audit w.db).counted hc
  | deleteAccount ids eventId input =>
    simp only [exec]
    cases hp : prepareAccountDeletionLifecycle env ids eventId input w.db with
    | error e => exact hc
    | ok r =>
      obtain ⟨new, e, -, -, he, hdb⟩ := prepareAccountDeletionLifecycle_eq_ok hp
      simp only [hdb]
      exact AuditKept.counted (.of_event rfl (by simp [he]) fun _ => rfl) hc
  | evaluateRestoreCandidate testId eventId now input =>
    simp only [exec]
    cases hp : evaluateRestoreCandidate env testId eventId now input w.db with
    | error e => exact hc
    | ok r =>
      obtain ⟨b, t, e, -, -, -, -, -, he, hdb⟩ := evaluateRestoreCandidate_eq_ok hp
      have htype : e.eventType ≠ .backupDeleted := fun hd => by simp [hd] at he
      simp only [committed, hdb]
      exact AuditKept.counted (.of_event rfl htype fun _ => rfl) hc
  | sweep eventId now execute evidence =>
    obtain rfl : execute = false := hok
    simp only [exec, dryRun_eq, committed]
    exact hc
  | startRun now limit => exact hc
  | claim i => exact stepRun_counted hc fun r _ => (stepClaim_audit env _ r).counted hc
  | adapter i outcome => exact stepRun_counted hc fun _ _ => hc
  | commit i eventId fault =>
    exact stepRun_counted hc fun r hr => stepCommit_counted hsha h.lifecycle.sound.keyed hr hok hc
  | markFailed i => exact stepRun_counted hc fun r _ => (stepMarkFailed_audit env _ r).counted hc
  | reportFailed i eventId => exact stepRun_counted hc fun r _ => (stepReportFailed_audit env eventId _ r).counted hc

theorem exec_returned {env : Env} {w : World} {op : Op} (h : Returned w) (hok : Auditable w op) :
    Returned (exec env w op) := by
  cases op with
  | deleteAccount ids eventId input =>
    simp only [exec]
    split <;> exact h
  | startRun now limit =>
    intro i r hr id hid
    simp only [exec] at hr ⊢
    rw [List.getElem?_append] at hr
    split_ifs at hr with hlen
    · exact h i r hr id hid
    · obtain rfl := List.mem_singleton.mp (List.mem_of_getElem? hr)
      exact absurd hid List.not_mem_nil
  | claim i => exact h.stepRun fun r _ id hid => .inl (stepClaim_deleted _ r ▸ hid)
  | adapter i outcome => exact h.stepRun fun r _ id hid => .inl (stepAdapter_deleted outcome r ▸ hid)
  | commit i eventId fault => exact h.stepRun fun r hr id hid => stepCommit_returned hr hok hid
  | markFailed i => exact h.stepRun fun r _ id hid => .inl (stepMarkFailed_deleted _ r ▸ hid)
  | reportFailed i eventId => exact h.stepRun fun r _ id hid => .inl (stepReportFailed_deleted env eventId _ r ▸ hid)
  | ambient a => exact h
  | registerBackup id eventId now input => exact h
  | evaluateRestoreCandidate testId eventId now input => exact h
  | sweep eventId now execute evidence => exact h

theorem reach_auditInv {env : Env} (hsha : Function.Injective env.sha256) {w : World}
    (h : (system env).Reach Auditable w) : AuditInv env w := by
  have hempty : Returned .empty := fun i r hr => by simp [World.empty] at hr
  refine h.invariant ⟨reachable_lifecycleInv .refl, fun _ => rfl, hempty⟩ fun w op w' hi hok hstep => ?_
  obtain ⟨ht, rfl⟩ := hstep
  exact ⟨exec_lifecycleInv hi.lifecycle ht, exec_counted hsha hi hok, exec_returned hi.returned hok⟩

/-- **The audit of deleted backups.** In every run whose commits find their backup being deleted, and
without a sweep that removes old events, each backup has one event of its deletion if it is deleted and
none otherwise, and a run returns as deleted what it changed to deleted. -/
theorem backupAudit (env : Env) (hsha : Function.Injective env.sha256) (w : World)
    (h : (system env).Reach Auditable w) : BackupAudit env w := by
  have hinv := reach_auditInv hsha h
  refine ⟨fun id => ?_, fun b hb => ?_, hinv.returned⟩
  · rw [hinv.counted id]
    split_ifs <;> decide
  · have hfind := (Table.find_eq_some_iff hinv.lifecycle.sound.keyed).mpr ⟨hb, rfl⟩
    rw [hinv.counted b.id, Db.isDeleted, hfind]
    by_cases hd : b.status = .deleted <;> simp [hd]

theorem sampleEnv_injective : Function.Injective sampleEnv.sha256 :=
  (Equiv.swap _ _).injective.comp (Equiv.swap _ _).injective

/-- The copy of January is due on the 31st. One run claims it, and its adapter hangs. After the lease another
run claims the copy and deletes it. Then the adapter of the first run returns as well. -/
def overlappingRuns : List Op := [
  .registerBackup "bkp-1" "lce-1" newYear januaryCopy,
  .startRun (newYear + 30 * day) 50,
  .claim 0,
  .startRun (newYear + 30 * day + 15 * minute) 50,
  .claim 1,
  .adapter 1 (.ok ()),
  .commit 1 "lce-2" none,
  .adapter 0 (.ok ())]

theorem overlappingRuns_onTime : onTimeRun sampleEnv Auditable .empty overlappingRuns = true := by decide +kernel

/-- Up to there the audit is exact: one event for the one deleted copy. -/
theorem backupAudit_overlapping : BackupAudit sampleEnv (run sampleEnv .empty overlappingRuns) :=
  backupAudit sampleEnv sampleEnv_injective _ (steps_run overlappingRuns_onTime)

/-- A sweep that removes what is too old. -/
def Op.executesSweep : Op → Bool
  | .sweep _ _ execute _ => execute
  | _ => false

/-- The late commit files a second event, and the first run returns a copy that the second one deleted. -/
theorem backupAudit_broken_by_late_commit : ¬ ∀ (env : Env) (w : World), Function.Injective env.sha256 →
    (system env).Reach (fun _ op => op.executesSweep = false) w → BackupAudit env w := by
  intro h
  have hreach : (system sampleEnv).Reach (fun _ op => op.executesSweep = false)
      (run sampleEnv .empty (overlappingRuns ++ [.commit 0 "lce-3" none])) := steps_run (by decide +kernel)
  have honce := (h sampleEnv _ sampleEnv_injective hreach).once "bkp-1"
  have htwo : (run sampleEnv .empty (overlappingRuns ++ [.commit 0 "lce-3" none])).db.deletionEvents sampleEnv
      "bkp-1" = 2 := by decide +kernel
  rw [htwo] at honce
  exact absurd honce (by decide)

end Forge.Lifecycle
