import Forge.Lifecycle.Outcomes

/-!
# Deleted subjects are not restored

Once the deletion of a subject has committed, no backup that lists the subject and
was captured up to then is evaluated as eligible, also after the tombstone is gone
(`restoreSuppression`). Three windows meet here. A copy may be kept for 30 days
after its capture; the tombstone blocks it for 45 days after the deletion; and a
sweep removes the tombstone only when these have passed. So a copy that is not yet
due is either blocked by the tombstone or was captured after the deletion.

The same invariant says when a tombstone may be marked as backup-complete: only
while every registered copy that lists its subject is deleted. Registrations
reopen it, and a deleted copy is never anything else again.
-/

namespace Forge.Lifecycle

/-! ### What a step does to the catalog -/

/-- A row of the catalog and what a statement makes of it: a deleted copy stays deleted. -/
structure Follows (b b' : BackupRecord) : Prop where
  id : b'.id = b.id
  capturedAt : b'.capturedAt = b.capturedAt
  deleteAfter : b'.deleteAfter = b.deleteAfter
  deleted : b.status = .deleted → b'.status = .deleted

theorem Follows.refl (b : BackupRecord) : Follows b b := ⟨rfl, rfl, rfl, fun h => h⟩

theorem Follows.claimed {now : ℤ} {b : BackupRecord} (h : b.claimable now = true) : Follows b (b.claimed now) := by
  refine ⟨rfl, rfl, rfl, fun hd => ?_⟩
  simp [BackupRecord.claimable, hd] at h

theorem Follows.failed {now : ℤ} {code : String} {b : BackupRecord} (h : b.status = .deleting) :
    Follows b (b.failed now code) := by
  refine ⟨rfl, rfl, rfl, fun hd => ?_⟩
  simp [hd] at h

theorem Follows.completed (now : ℤ) (b : BackupRecord) : Follows b (b.completed now) := ⟨rfl, rfl, rfl, fun _ => rfl⟩

/-- Tombstones stay with their subject and their expiry, unless they are past it at time `n`. -/
def Keeps (n : ℤ) (ts ts' : List Tombstone) : Prop :=
  ∀ t ∈ ts, (∃ t' ∈ ts', t'.subject = t.subject ∧ t'.tombstoneExpiresAt = t.tombstoneExpiresAt) ∨
    t.tombstoneExpiresAt ≤ n

theorem Keeps.refl (n : ℤ) (ts : List Tombstone) : Keeps n ts ts := fun t ht => .inl ⟨t, ht, rfl, rfl⟩

theorem Keeps.map {n : ℤ} {f : Tombstone → Tombstone} (ts : List Tombstone) (hs : ∀ t, (f t).subject = t.subject)
    (he : ∀ t, (f t).tombstoneExpiresAt = t.tombstoneExpiresAt) : Keeps n ts (ts.map f) :=
  fun t ht => .inl ⟨f t, List.mem_map_of_mem ht, hs t, he t⟩

theorem Keeps.marked (n m : ℤ) (q : Tombstone → Bool) (ts : List Tombstone) :
    Keeps n ts (Table.update q (fun t => { t with backupDeletedAt := some m }) ts) :=
  .map ts (fun t => by split_ifs <;> rfl) (fun t => by split_ifs <;> rfl)

/-- What a step that registers no copy does to the tables by time `n`: copies are changed or removed
with their subjects, a tombstone is marked only where every copy is deleted, and it stays until it is
past its expiry. -/
structure Preserves (n : ℤ) (db db' : Db) : Prop where
  ids : (db'.backupRecords.map BackupRecord.id).Sublist (db.backupRecords.map BackupRecord.id)
  records : ∀ b' ∈ db'.backupRecords, ∃ b ∈ db.backupRecords, Follows b b'
  subjects : ∀ r ∈ db'.backupSubjects, r ∈ db.backupSubjects ∧
    (r.backupId ∈ db.backupRecords.map BackupRecord.id → r.backupId ∈ db'.backupRecords.map BackupRecord.id)
  marked : ∀ t' ∈ db'.deletionTombstones, t'.backupDeletedAt ≠ none → db'.allDeleted t'.subject = true ∨
    ∃ t ∈ db.deletionTombstones, t.subject = t'.subject ∧ t.backupDeletedAt ≠ none
  kept : Keeps n db.deletionTombstones db'.deletionTombstones

/-- Where the catalog stays, only the tombstones matter. -/
theorem Preserves.of_catalog {n : ℤ} {db db' : Db} (hr : db'.backupRecords = db.backupRecords)
    (hs : db'.backupSubjects = db.backupSubjects)
    (ht : ∀ t' ∈ db'.deletionTombstones, t'.backupDeletedAt ≠ none →
      ∃ t ∈ db.deletionTombstones, t.subject = t'.subject ∧ t.backupDeletedAt ≠ none)
    (hk : Keeps n db.deletionTombstones db'.deletionTombstones) : Preserves n db db' where
  ids := by rw [hr]
  records b' hb := ⟨b', hr ▸ hb, .refl b'⟩
  subjects r hm := ⟨hs ▸ hm, fun h => by rwa [hr]⟩
  marked t' hm hn := .inr (ht t' hm hn)
  kept := hk

theorem Preserves.of_eq {n : ℤ} {db db' : Db} (hr : db'.backupRecords = db.backupRecords)
    (hs : db'.backupSubjects = db.backupSubjects) (ht : db'.deletionTombstones = db.deletionTombstones) :
    Preserves n db db' :=
  .of_catalog hr hs (fun t' hm hn => ⟨t', ht ▸ hm, rfl, hn⟩) (by rw [ht]; exact .refl n _)

theorem reopened_marked {b : BackupRecord} {subjects : List Subject} {t : Tombstone}
    (h : (reopened b subjects t).backupDeletedAt ≠ none) : t.backupDeletedAt ≠ none := by
  unfold reopened at h
  split_ifs at h
  · exact absurd rfl h
  · exact h

/-- Marking tombstones, and updating copies that stay what they are. -/
theorem Preserves.of_update {n : ℤ} {db db' : Db} {p : BackupRecord → Bool} {f : BackupRecord → BackupRecord}
    {q : Tombstone → Bool} {m : ℤ} (hf : ∀ b, p b = true → Follows b (f b))
    (hr : db'.backupRecords = Table.update p f db.backupRecords) (hs : db'.backupSubjects = db.backupSubjects)
    (hq : ∀ t, q t = true → db'.allDeleted t.subject = true)
    (ht : db'.deletionTombstones = Table.update q (fun t => { t with backupDeletedAt := some m })
      db.deletionTombstones) : Preserves n db db' := by
  have hids : db'.backupRecords.map BackupRecord.id = db.backupRecords.map BackupRecord.id := by
    rw [hr]
    exact Table.map_update (fun b hb => (hf b hb).id) _
  refine ⟨by rw [hids], fun b' hb => ?_, fun r hm => ⟨hs ▸ hm, fun h => by rwa [hids]⟩, fun t' hm hn => ?_,
    by rw [ht]; exact .marked n m q _⟩
  · obtain ⟨b, hmem, rfl⟩ := Table.mem_update.mp (hr ▸ hb)
    by_cases hp : p b = true
    · exact ⟨b, hmem, by rw [if_pos hp]; exact hf b hp⟩
    · exact ⟨b, hmem, by rw [if_neg hp]; exact .refl b⟩
  · obtain ⟨t, hmem, rfl⟩ := Table.mem_update.mp (ht ▸ hm)
    by_cases hp : q t = true
    · left
      rw [if_pos hp]
      exact hq t hp
    · right
      rw [if_neg hp] at hn ⊢
      exact ⟨t, hmem, rfl, hn⟩

theorem Preserves.refl (n : ℤ) (db : Db) : Preserves n db db := .of_eq rfl rfl rfl

/-! ### Each step -/

theorem stepClaim_preserves (n : ℤ) (db : Db) (r : DeletionRun) : Preserves n db (stepClaim db r).1 := by
  unfold stepClaim
  split
  · rename_i candidate due hstage hdue
    have hclaim : Preserves n db (claimBackup r.now candidate.id db).1 :=
      .of_update (q := fun _ => false) (m := 0)
        (fun b hb => .claimed (by simp only [Bool.and_eq_true] at hb; exact hb.2))
        rfl rfl (fun _ h => by cases h) (by simp [claimBackup, Table.update])
    split
    · rename_i db' b hc
      rw [hc] at hclaim
      exact hclaim
    · rename_i db' hc
      rw [hc] at hclaim
      exact hclaim
  · exact .refl n db

theorem stepCommit_preserves (n : ℤ) (env : Env) (eventId : String) (fault : Option String) (db : Db)
    (r : DeletionRun) : Preserves n db (stepCommit env eventId fault db r).1 := by
  unfold stepCommit
  split
  · split
    · exact .refl n db
    · split
      · rename_i db' hc
        obtain ⟨-, hr, hs, -, q, hq, ht⟩ := commitDeletion_eq_ok hc
        exact .of_update (fun b _ => .completed _ b) hr hs hq ht
      · exact .refl n db
  · exact .refl n db

theorem stepMarkFailed_preserves (n : ℤ) (db : Db) (r : DeletionRun) : Preserves n db (stepMarkFailed db r).1 := by
  unfold stepMarkFailed
  split
  · exact .of_update (q := fun _ => false) (m := 0)
      (fun b hb => .failed (by simp only [Bool.and_eq_true, decide_eq_true_eq] at hb; exact hb.2))
      rfl rfl (fun _ h => by cases h) (by simp [markDeleteFailed, Table.update])
  · exact .refl n db

theorem stepReportFailed_preserves (n : ℤ) (env : Env) (eventId : String) (db : Db) (r : DeletionRun) :
    Preserves n db (stepReportFailed env eventId db r).1 := by
  unfold stepReportFailed
  split
  · split
    · rename_i db' he
      obtain ⟨rfl, -⟩ := insertEvent_eq_ok he
      exact .of_eq rfl rfl rfl
    · exact .refl n db
  · exact .refl n db

theorem stepRun_preserves {w : World} {i : ℕ} {f : Db → DeletionRun → Db × DeletionRun}
    (h : ∀ r, Preserves w.clock w.db (f w.db r).1) :
    Preserves (w.stepRun i f).clock w.db (w.stepRun i f).db := by
  unfold World.stepRun
  split
  · exact .refl _ _
  · exact h _

theorem sweep_preserves {env : Env} {eventId : String} {now : ℤ} {execute : Bool} {evidence : Option String} {db : Db}
    (hk : db.Keyed) : Preserves now db (committed db (runPrimaryRetentionSweep env eventId now execute evidence db)) := by
  cases h : runPrimaryRetentionSweep env eventId now execute evidence db with
  | error e => exact .refl now db
  | ok res =>
    obtain ⟨db', c⟩ := res
    cases execute with
    | false =>
      obtain ⟨rfl, -⟩ := Prod.mk.inj (Except.ok.inj ((dryRun_eq ..).symm.trans h))
      exact .refl now _
    | true =>
      obtain ⟨ids, hdel, hr, hs, q, hq, ht⟩ := runPrimaryRetentionSweep_eq_ok hk h
      simp only [committed]
      refine ⟨?_, fun b' hb => ?_, fun r hm => ?_, fun t' hm hn => ?_, fun t hm => ?_⟩
      · rw [hr]
        exact List.filter_sublist.map _
      · rw [hr] at hb
        exact ⟨b', List.mem_of_mem_filter hb, .refl b'⟩
      · rw [hs] at hm
        obtain ⟨hm, hid⟩ := List.mem_filter.mp hm
        refine ⟨hm, fun h => ?_⟩
        obtain ⟨b, hb, he⟩ := List.mem_map.mp h
        rw [hr]
        exact List.mem_map.mpr ⟨b, List.mem_filter.mpr ⟨hb, by rw [he]; exact hid⟩, he⟩
      · rw [ht] at hm
        obtain ⟨t, hmem, rfl⟩ := Table.mem_update.mp (List.mem_of_mem_filter hm)
        by_cases hp : q t = true
        · left
          rw [if_pos hp]
          exact hq t hp
        · right
          rw [if_neg hp] at hn ⊢
          exact ⟨t, hmem, rfl, hn⟩
      · by_cases hexp : t.tombstoneExpiresAt ≤ now
        · exact .inr hexp
        · obtain ⟨t', hm', hs', he'⟩ := (Keeps.marked now now q _ t hm).resolve_right hexp
          refine .inl ⟨t', ?_, hs', he'⟩
          rw [ht]
          exact List.mem_filter.mpr ⟨hm', by simp [Tombstone.expired, he', hexp]⟩

/-- **What a step does to the tables**: it registers a copy, or it preserves what is there. -/
theorem exec_registered_or_preserves (env : Env) (w : World) (op : Op) (hk : w.db.Keyed) :
    (∃ b subjects e, Registered w.db (exec env w op).db b subjects e) ∨
      Preserves (exec env w op).clock w.db (exec env w op).db := by
  cases op with
  | ambient a => exact .inr (.of_eq rfl rfl rfl)
  | registerBackup id eventId now input =>
    simp only [exec]
    cases h : registerBackup env id eventId now input w.db with
    | error e => exact .inr (.refl _ _)
    | ok r =>
      obtain ⟨subjects, e, hreg⟩ | ⟨c, subjects, hc⟩ := registerBackup_eq_ok h
      · exact .inl ⟨_, subjects, e, hreg⟩
      · right
        simp only [committed, hc]
        refine .of_catalog rfl rfl (fun t' hm hn => ?_)
          (.map _ (fun t => reopened_subject c subjects t) fun t => reopened_expires c subjects t)
        obtain ⟨t, hmem, rfl⟩ := List.mem_map.mp hm
        exact ⟨t, hmem, (reopened_subject ..).symm, reopened_marked hn⟩
  | deleteAccount ids eventId input =>
    right
    simp only [exec]
    cases h : prepareAccountDeletionLifecycle env ids eventId input w.db with
    | error e => exact .refl _ _
    | ok r =>
      obtain ⟨new, e, hnone, -, -, hdb⟩ := prepareAccountDeletionLifecycle_eq_ok h
      simp only [hdb]
      refine .of_catalog rfl rfl (fun t' hm hn => ?_)
        (fun t hm => .inl ⟨t, List.mem_append_left _ hm, rfl, rfl⟩)
      rcases List.mem_append.mp hm with hm | hm
      · exact ⟨t', hm, rfl, hn⟩
      · exact absurd (hnone t' hm) hn
  | evaluateRestoreCandidate testId eventId now input =>
    right
    simp only [exec]
    cases h : evaluateRestoreCandidate env testId eventId now input w.db with
    | error e => exact .refl _ _
    | ok r =>
      obtain ⟨b, t, e, -, -, -, -, -, -, hdb⟩ := evaluateRestoreCandidate_eq_ok h
      simp only [committed, hdb]
      exact .of_eq rfl rfl rfl
  | sweep eventId now execute evidence => exact .inr (sweep_preserves hk)
  | startRun now limit => exact .inr (.refl _ _)
  | claim i => exact .inr (stepRun_preserves fun r => stepClaim_preserves _ _ r)
  | adapter i outcome => exact .inr (stepRun_preserves fun r => .refl _ _)
  | commit i eventId fault => exact .inr (stepRun_preserves fun r => stepCommit_preserves _ env eventId fault _ r)
  | markFailed i => exact .inr (stepRun_preserves fun r => stepMarkFailed_preserves _ _ r)
  | reportFailed i eventId => exact .inr (stepRun_preserves fun r => stepReportFailed_preserves _ env eventId _ r)

/-! ### The invariant -/

/-- What holds of the tables in every reachable state. -/
structure Sound (db : Db) : Prop where
  keyed : db.Keyed
  foreign : ∀ r ∈ db.backupSubjects, r.backupId ∈ db.backupRecords.map BackupRecord.id
  deadline : ∀ b ∈ db.backupRecords, b.deleteAfter ≤ addDays b.capturedAt backupMaxDays
  /-- A tombstone that is marked as backup-complete has no undeleted copy. -/
  complete : ∀ t ∈ db.deletionTombstones, t.backupDeletedAt ≠ none → db.allDeleted t.subject = true

/-- Copies that stay deleted keep a subject free. -/
theorem Preserves.allDeleted {n : ℤ} {db db' : Db} (h : Preserves n db db') {s : Subject}
    (hall : db.allDeleted s = true) : db'.allDeleted s = true := by
  rw [Db.allDeleted_iff] at hall ⊢
  intro r hm hs b' hb hid
  obtain ⟨b, hmem, hf⟩ := h.records b' hb
  exact hf.deleted (hall r (h.subjects r hm).1 hs b hmem (hf.id.symm.trans hid))

theorem Sound.preserved {n : ℤ} {db db' : Db} (hs : Sound db) (h : Preserves n db db') : Sound db' where
  keyed := hs.keyed.sublist h.ids
  foreign r hm := (h.subjects r hm).2 (hs.foreign r (h.subjects r hm).1)
  deadline b' hb := by
    obtain ⟨b, hmem, hf⟩ := h.records b' hb
    rw [hf.deleteAfter, hf.capturedAt]
    exact hs.deadline b hmem
  complete t' hm hn := by
    rcases h.marked t' hm hn with hall | ⟨t, hmem, he, hn⟩
    · exact hall
    · exact h.allDeleted (he ▸ hs.complete t hmem hn)

theorem Sound.registered {db db' : Db} {b : BackupRecord} {subjects : List Subject} {e : LifecycleEvent} (hs : Sound db)
    (h : Registered db db' b subjects e) : Sound db' := by
  obtain ⟨hfresh, hav, hlimit, -, rfl⟩ := h
  refine ⟨?_, fun r hm => ?_, fun c hc => ?_, fun t' hm hn => ?_⟩
  · simp only [Db.Keyed, List.map_append, List.map_singleton]
    exact List.nodup_append.mpr ⟨hs.keyed, List.nodup_singleton _, fun x hx y hy hxy => by
      rw [List.mem_singleton.mp hy] at hxy
      exact hfresh (hxy ▸ hx)⟩
  · rw [List.map_append]
    rcases List.mem_append.mp hm with hm | hm
    · exact List.mem_append_left _ (hs.foreign r hm)
    · obtain ⟨s, -, rfl⟩ := List.mem_map.mp hm
      exact List.mem_append_right _ (List.mem_singleton.mpr rfl)
  · rcases List.mem_append.mp hc with hc | hc
    · exact hs.deadline c hc
    · rw [List.mem_singleton.mp hc]
      exact hlimit
  · obtain ⟨t, hmem, rfl⟩ := List.mem_map.mp hm
    -- the tombstones of the listed subjects were reopened, and the new copy does not list the others
    have hother : t.subject ∉ subjects := fun hin => hn (by
      rw [reopened, if_pos ⟨hin, by rw [hav]; decide⟩])
    have hall := Db.allDeleted_iff.mp (hs.complete t hmem (reopened_marked hn))
    rw [reopened_subject, Db.allDeleted_iff]
    intro r hr hrs c hc hid
    rcases List.mem_append.mp hr with hr | hr
    · rcases List.mem_append.mp hc with hc | hc
      · exact hall r hr hrs c hc hid
      · rw [List.mem_singleton.mp hc] at hid
        exact absurd (hid ▸ hs.foreign r hr) hfresh
    · obtain ⟨s, hin, rfl⟩ := List.mem_map.mp hr
      exact absurd (hrs ▸ hin) hother

/-- A deletion is remembered: its tombstone stands, or its 45 days are over. -/
def Remembered (w : World) (d : Subject × ℤ) : Prop :=
  (∃ t ∈ w.db.deletionTombstones, t.subject = d.1 ∧ t.tombstoneExpiresAt = addDays d.2 tombstoneDays) ∨
    addDays d.2 tombstoneDays ≤ w.clock

theorem Remembered.of_keeps {w w' : World} {d : Subject × ℤ} (h : Remembered w d) (hclock : w.clock ≤ w'.clock)
    (hk : Keeps w'.clock w.db.deletionTombstones w'.db.deletionTombstones) : Remembered w' d := by
  obtain ⟨t, hm, hs, he⟩ | hover := h
  · obtain ⟨t', hm', hs', he'⟩ | hexp := hk t hm
    · exact .inl ⟨t', hm', hs'.trans hs, he'.trans he⟩
    · exact .inr (he ▸ hexp)
  · exact .inr (hover.trans hclock)

/-- The clock of a step that is on time. -/
theorem clock_le_exec {env : Env} {w : World} {op : Op} (h : onTime w op) : w.clock ≤ (exec env w op).clock := by
  have hrun : ∀ i f, (w.stepRun i f).clock = w.clock := fun i f => by
    unfold World.stepRun
    split <;> rfl
  cases op with
  | ambient a => exact le_refl _
  | registerBackup id eventId now input => exact h now rfl
  | deleteAccount ids eventId input =>
    have hnow := h input.now rfl
    simp only [exec]
    split <;> exact hnow
  | evaluateRestoreCandidate testId eventId now input => exact h now rfl
  | sweep eventId now execute evidence => exact h now rfl
  | startRun now limit => exact h now rfl
  | claim i => exact (hrun i _).ge
  | adapter i outcome => exact (hrun i _).ge
  | commit i eventId fault => exact (hrun i _).ge
  | markFailed i => exact (hrun i _).ge
  | reportFailed i eventId => exact (hrun i _).ge

/-- The deletions of a step are those before it and the subjects of an account it deleted. -/
theorem exec_deletions {env : Env} {w : World} {op : Op} {d : Subject × ℤ} (h : d ∈ (exec env w op).deletions) :
    d ∈ w.deletions ∨ Remembered (exec env w op) d := by
  have hrun : ∀ i f, (w.stepRun i f).deletions = w.deletions := fun i f => by
    unfold World.stepRun
    split <;> rfl
  cases op with
  | deleteAccount ids eventId input =>
    simp only [exec] at h ⊢
    cases hp : prepareAccountDeletionLifecycle env ids eventId input w.db with
    | error e =>
      rw [hp] at h
      exact .inl h
    | ok r =>
      rw [hp] at h
      rcases List.mem_append.mp h with h | h
      · obtain ⟨s, hs, rfl⟩ := List.mem_map.mp h
        obtain ⟨new, e, -, hnew, -, hdb⟩ := prepareAccountDeletionLifecycle_eq_ok hp
        obtain ⟨t, hm, hts, hte⟩ := hnew s hs
        refine .inr (.inl ⟨t, ?_, hts, hte⟩)
        simp only [hdb]
        exact List.mem_append_right _ hm
      · exact .inl h
  | ambient a => exact .inl h
  | registerBackup id eventId now input => exact .inl h
  | evaluateRestoreCandidate testId eventId now input => exact .inl h
  | sweep eventId now execute evidence => exact .inl h
  | startRun now limit => exact .inl h
  | claim i => exact .inl (hrun i _ ▸ h)
  | adapter i outcome => exact .inl (hrun i _ ▸ h)
  | commit i eventId fault => exact .inl (hrun i _ ▸ h)
  | markFailed i => exact .inl (hrun i _ ▸ h)
  | reportFailed i eventId => exact .inl (hrun i _ ▸ h)

/-- **The invariant of the lifecycle**: sound tables, and every deletion remembered. -/
structure LifecycleInv (w : World) : Prop where
  sound : Sound w.db
  remembered : ∀ d ∈ w.deletions, Remembered w d

theorem exec_lifecycleInv {env : Env} {w : World} {op : Op} (h : LifecycleInv w) (ht : onTime w op) :
    LifecycleInv (exec env w op) := by
  have hclock : w.clock ≤ (exec env w op).clock := clock_le_exec ht
  rcases exec_registered_or_preserves env w op h.sound.keyed with ⟨b, subjects, e, hreg⟩ | hpres
  · refine ⟨h.sound.registered hreg, fun d hd => ?_⟩
    rcases exec_deletions hd with hd | hd
    · refine (h.remembered d hd).of_keeps hclock ?_
      rw [hreg.tables]
      exact .map _ (reopened_subject b subjects) (reopened_expires b subjects)
    · exact hd
  · refine ⟨h.sound.preserved hpres, fun d hd => ?_⟩
    rcases exec_deletions hd with hd | hd
    · exact (h.remembered d hd).of_keeps hclock hpres.kept
    · exact hd

theorem reachable_lifecycleInv {env : Env} {w : World} (h : (system env).Reachable w) : LifecycleInv w := by
  refine h.invariant ⟨⟨List.nodup_nil, List.forall_mem_nil _, List.forall_mem_nil _, List.forall_mem_nil _⟩,
    List.forall_mem_nil _⟩ fun w op w' hi _ hstep => ?_
  obtain ⟨ht, rfl⟩ := hstep
  exact exec_lifecycleInv hi ht

/-- A listed subject that blocks nothing has no tombstone left. -/
theorem expired_of_not_blocked {db : Db} {id : String} {now : ℤ} {s : Subject} {t : Tombstone}
    (h : db.blockedSubjects id now = []) (hs : db.lists id s = true) (ht : t ∈ db.deletionTombstones)
    (he : t.subject = s) : t.tombstoneExpiresAt ≤ now := by
  by_contra hlt
  have hmem : s ∈ db.blockedSubjects id now := by
    rw [Db.blockedSubjects, List.mem_eraseDups, List.mem_filter]
    refine ⟨List.mem_map.mpr ⟨⟨id, s⟩, List.mem_filter.mpr ⟨Db.lists_iff.mp hs, by simp⟩, rfl⟩, ?_⟩
    exact List.any_eq_true.mpr ⟨t, ht, by simp [he, not_le.mp hlt]⟩
  rw [h] at hmem
  exact List.not_mem_nil hmem

/-- **Deleted subjects are not restored.** In every reachable state, an evaluation that is on time and
finds a copy eligible has found one that was captured after the deletion of each subject it lists, and a
tombstone that is marked as backup-complete has no undeleted copy that lists its subject. -/
theorem restoreSuppression (env : Env) (w : World) (h : (system env).Reachable w) :
    (∀ testId eventId now input db r, onTime w (.evaluateRestoreCandidate testId eventId now input) →
      evaluateRestoreCandidate env testId eventId now input w.db = .ok (db, r) → r.result = .eligible →
      ∀ b ∈ w.db.backupRecords, b.id = input.backupId → ∀ d ∈ w.deletions, w.db.lists b.id d.1 = true →
        d.2 < b.capturedAt) ∧
    ∀ t ∈ w.db.deletionTombstones, t.backupDeletedAt ≠ none →
      ∀ b ∈ w.db.backupRecords, w.db.lists b.id t.subject = true → b.status = .deleted := by
  have hinv := reachable_lifecycleInv h
  refine ⟨fun testId eventId now input db r ht hev hel b hb hid d hd hlists => ?_, fun t ht hn b hb hlists => ?_⟩
  · obtain ⟨c, -, -, hc, hcid, -, hdue, hblocked, -, -⟩ := evaluateRestoreCandidate_eq_ok hev
    obtain rfl := List.inj_on_of_nodup_map hinv.sound.keyed hb hc (hid.trans hcid.symm)
    have hnow : w.clock ≤ now := ht now rfl
    have hover : addDays d.2 tombstoneDays ≤ now := by
      obtain ⟨t, hm, hs, he⟩ | hover := hinv.remembered d hd
      · exact he ▸ expired_of_not_blocked (hblocked hel) (hid ▸ hlists) hm hs
      · exact hover.trans hnow
    have hlimit := hinv.sound.deadline b hb
    simp only [addDays, backupMaxDays, tombstoneDays, day] at hlimit hover
    omega
  · exact Db.allDeleted_iff.mp (hinv.sound.complete t ht hn) _ (Db.lists_iff.mp hlists) rfl b hb rfl

/-- 1 January 2026 on the database clock. -/
def newYear : ℤ := 1767225600000000

/-- A copy of the account `user-1`, captured on 1 January. -/
def januaryCopy : RegisterInput where
  provider := "vault"
  externalReference := "backup/january"
  manifestSha256 := "0000000000000000000000000000000000000000000000000000000000000000"
  capturedAt := "2026-01-01T00:00:00.000Z"
  deleteAfter := "2026-01-31T00:00:00.000Z"
  subjects := [(.user, "user-1")]

/-- The copy is registered, and the account is deleted on the next day. -/
def deletedAccount : World := run sampleEnv .empty [
  .registerBackup "bkp-1" "lce-1" newYear januaryCopy,
  .deleteAccount (fun _ => "tmb-1") "lce-2" {
    userId := "user-1", objectKeys := [], deletionId := "del-1", now := newYear + day }]

theorem deletedAccount_reachable : (system sampleEnv).Reachable deletedAccount := steps_run (by decide +kernel)

/-- The evaluation of the copy on 10 January. -/
def evaluation : Except Failure (Db × RestoreEvaluation) :=
  evaluateRestoreCandidate sampleEnv "rst-1" "lce-3" (newYear + 9 * day)
    { backupId := "bkp-1", manifestSha256 := januaryCopy.manifestSha256, evidenceReference := "restore/1" }
    deletedAccount.db

theorem evaluation_returns : evaluation.toOption.isSome = true := by decide +kernel

/-- The evaluation returns, and it does not find the copy eligible. -/
theorem restoreSuppression_account : ∃ db r, evaluation = .ok (db, r) ∧ r.result ≠ .eligible := by
  obtain ⟨⟨db, r⟩, hr⟩ := Option.isSome_iff_exists.mp evaluation_returns
  have hev := toOption_eq_some_iff.mp hr
  refine ⟨db, r, hev, fun hel => ?_⟩
  have hsupp := (restoreSuppression sampleEnv deletedAccount deletedAccount_reachable).1 _ _ _ _ db r (by decide +kernel)
    hev hel
  have hcopy : ∃ b ∈ deletedAccount.db.backupRecords, b.id = "bkp-1" ∧ b.capturedAt = newYear := by decide +kernel
  obtain ⟨b, hb, hid, hcap⟩ := hcopy
  have hlt := hsupp b hb hid (⟨.user, userDigest⟩, newYear + day) (by decide +kernel)
    (by rw [hid]; decide +kernel)
  rw [hcap] at hlt
  exact absurd hlt (by decide)

end Forge.Lifecycle
