import Forge.Lifecycle.System

/-!
# Outcomes of the lifecycle transactions

For each transaction, what it has checked and what it has written when it returns.
Later proofs use these lemmas and do not open the transactions again.
-/

namespace Forge.Lifecycle

/-! ### Tombstones of a registration -/

/-- What a registration does to a tombstone. -/
def reopened (b : BackupRecord) (subjects : List Subject) (t : Tombstone) : Tombstone :=
  if t.subject ∈ subjects ∧ b.status ≠ .deleted then { t with backupDeletedAt := none } else t

@[simp] theorem reopened_subject (b : BackupRecord) (subjects : List Subject) (t : Tombstone) :
    (reopened b subjects t).subject = t.subject := by
  unfold reopened
  split_ifs <;> rfl

@[simp] theorem reopened_expires (b : BackupRecord) (subjects : List Subject) (t : Tombstone) :
    (reopened b subjects t).tombstoneExpiresAt = t.tombstoneExpiresAt := by
  unfold reopened
  split_ifs <;> rfl

theorem reconcileRow_eq_ok {b : BackupRecord} {t t' : Tombstone} (h : reconcileRow b t = .ok t') :
    t' = if b.status = .deleted then t else { t with backupDeletedAt := none } := by
  unfold reconcileRow at h
  split at h
  · cases h
  · split at h
    · cases h
    · exact (Except.ok.inj h).symm

/-- One subject of the loop. -/
theorem reconcileSubject_eq_ok {b : BackupRecord} {s : Subject} {ts ts' : List Tombstone}
    (h : (ts.mapM fun t => if t.subject = s then reconcileRow b t else .ok t) = .ok ts') :
    ts' = ts.map (reopened b [s]) := by
  induction ts generalizing ts' with
  | nil =>
    cases h
    rfl
  | cons t ts ih =>
    rw [List.mapM_cons] at h
    obtain ⟨t₁, ht, h⟩ := bind_eq_ok.mp h
    obtain ⟨ts₁, hts, h⟩ := bind_eq_ok.mp h
    cases h
    rw [List.map_cons, ih hts]
    congr 1
    by_cases hs : t.subject = s
    · rw [if_pos hs] at ht
      rw [reconcileRow_eq_ok ht]
      by_cases hb : b.status = .deleted <;> simp [reopened, hs, hb]
    · rw [if_neg hs] at ht
      rw [← Except.ok.inj ht]
      simp [reopened, hs]

theorem reopened_cons (b : BackupRecord) (s : Subject) (subjects : List Subject) (t : Tombstone) :
    reopened b subjects (reopened b [s] t) = reopened b (s :: subjects) t := by
  by_cases hb : b.status = .deleted
  · simp [reopened, hb]
  · by_cases hs : t.subject = s
    · by_cases hm : s ∈ subjects <;> simp [reopened, hb, hs, hm]
    · simp [reopened, hb, hs]

/-- **A registration that returns** reopens the tombstones of its subjects, unless the copy is deleted. -/
theorem reconcile_eq_ok {b : BackupRecord} {subjects : List Subject} {ts ts' : List Tombstone}
    (h : reconcileBackupSubjectsWithTombstones b subjects ts = .ok ts') : ts' = ts.map (reopened b subjects) := by
  induction subjects generalizing ts with
  | nil =>
    obtain rfl := Except.ok.inj h
    have hid : reopened b [] = id := funext fun t => by simp [reopened]
    rw [hid, List.map_id]
  | cons s subjects ih =>
    rw [reconcileBackupSubjectsWithTombstones, List.foldlM_cons] at h
    obtain ⟨ts₁, h₁, h⟩ := bind_eq_ok.mp h
    rw [ih h, reconcileSubject_eq_ok h₁, List.map_map]
    exact List.map_congr_left fun t _ => reopened_cons b s subjects t

/-! ### Registration -/

/-- What is checked of a registration before its transaction. -/
theorem checkRegistration_eq_ok {env : Env} {now : ℤ} {input : RegisterInput} {capturedAt deleteAfter : ℤ}
    {subjects : List Subject} (h : checkRegistration env now input = .ok (capturedAt, deleteAfter, subjects)) :
    deleteAfter ≤ addDays capturedAt backupMaxDays := by
  obtain ⟨_, -, h⟩ := bind_eq_ok.mp h
  obtain ⟨_, -, h⟩ := bind_eq_ok.mp h
  obtain ⟨_, -, h⟩ := bind_eq_ok.mp h
  split at h
  · obtain ⟨_, -, h⟩ := bind_eq_ok.mp h
    obtain ⟨_, hlimit, h⟩ := bind_eq_ok.mp h
    obtain ⟨_, -, h⟩ := bind_eq_ok.mp h
    obtain ⟨_, -, h⟩ := bind_eq_ok.mp h
    obtain ⟨_, -, h⟩ := bind_eq_ok.mp h
    cases h
    exact not_lt.mp (refuse_eq_ok.mp hlimit)
  · cases h

/-- What a registration under a new reference writes. -/
structure Registered (db db' : Db) (b : BackupRecord) (subjects : List Subject) (e : LifecycleEvent) : Prop where
  fresh : b.id ∉ db.backupRecords.map BackupRecord.id
  available : b.status = .available
  deadline : b.deleteAfter ≤ addDays b.capturedAt backupMaxDays
  event : e.eventType = .backupRegistered
  tables : db' = { db with
    backupRecords := db.backupRecords ++ [b]
    backupSubjects := db.backupSubjects ++ subjects.map fun s => ⟨b.id, s⟩
    deletionTombstones := db.deletionTombstones.map (reopened b subjects)
    dataLifecycleEvents := db.dataLifecycleEvents ++ [e] }

theorem insertBackup_eq_ok {b : BackupRecord} {db db' : Db} (h : insertBackup b db = .ok db') :
    b.id ∉ db.backupRecords.map BackupRecord.id ∧ db' = { db with backupRecords := db.backupRecords ++ [b] } := by
  unfold insertBackup at h
  split_ifs at h with hc
  exact ⟨fun hm => hc (.inl hm), (Except.ok.inj h).symm⟩

theorem insertSubjects_eq_ok {id : String} {subjects : List Subject} {db db' : Db}
    (h : insertSubjects id subjects db = .ok db') :
    db' = { db with backupSubjects := db.backupSubjects ++ subjects.map fun s => ⟨id, s⟩ } := by
  unfold insertSubjects at h
  split_ifs at h
  exact (Except.ok.inj h).symm

theorem registerNew_eq_ok {env : Env} {id eventId : String} {now : ℤ} {input : RegisterInput}
    {capturedAt deleteAfter : ℤ} {subjects : List Subject} {db db' : Db} {b : BackupRecord}
    (hlimit : deleteAfter ≤ addDays capturedAt backupMaxDays)
    (h : registerNew env id eventId now input capturedAt deleteAfter subjects db = .ok (db', b)) :
    ∃ e, Registered db db' b subjects e := by
  obtain ⟨db₁, h₁, h⟩ := bind_eq_ok.mp h
  obtain ⟨db₂, h₂, h⟩ := bind_eq_ok.mp h
  obtain ⟨db₃, h₃, h⟩ := bind_eq_ok.mp h
  obtain ⟨ts, h₄, h⟩ := bind_eq_ok.mp h
  obtain ⟨hfresh, rfl⟩ := insertBackup_eq_ok h₁
  obtain rfl := insertSubjects_eq_ok h₂
  obtain ⟨rfl, -⟩ := insertEvent_eq_ok h₃
  obtain rfl := reconcile_eq_ok h₄
  cases h
  exact ⟨_, hfresh, rfl, hlimit, rfl, rfl⟩

/-- What a registration under a known reference writes: it reopens tombstones of the copy it found. -/
theorem registerExisting_eq_ok {b b' : BackupRecord} {input : RegisterInput} {capturedAt deleteAfter : ℤ}
    {subjects : List Subject} {db db' : Db}
    (h : registerExisting b input capturedAt deleteAfter subjects db = .ok (db', b')) :
    db' = { db with deletionTombstones := db.deletionTombstones.map (reopened b subjects) } := by
  obtain ⟨_, -, h⟩ := bind_eq_ok.mp h
  obtain ⟨_, -, h⟩ := bind_eq_ok.mp h
  obtain ⟨ts, h₄, h⟩ := bind_eq_ok.mp h
  obtain rfl := reconcile_eq_ok h₄
  cases h
  rfl

/-- **A registration that returns** wrote a new copy, or reopened tombstones for a known one. -/
theorem registerBackup_eq_ok {env : Env} {id eventId : String} {now : ℤ} {input : RegisterInput} {db db' : Db}
    {b : BackupRecord} (h : registerBackup env id eventId now input db = .ok (db', b)) :
    (∃ subjects e, Registered db db' b subjects e) ∨
      ∃ c subjects, db' = { db with deletionTombstones := db.deletionTombstones.map (reopened c subjects) } := by
  obtain ⟨⟨capturedAt, deleteAfter, subjects⟩, hc, h⟩ := bind_eq_ok.mp h
  split at h
  · exact .inr ⟨_, _, registerExisting_eq_ok h⟩
  · exact .inl ⟨subjects, registerNew_eq_ok (checkRegistration_eq_ok hc) h⟩

/-! ### Account deletion -/

theorem insertTombstone_eq_ok {ts ts' : List Tombstone} {t : Tombstone} (h : insertTombstone ts t = .ok ts') :
    ts' = ts ++ [t] := by
  unfold insertTombstone at h
  split_ifs at h
  exact (Except.ok.inj h).symm

theorem insertTombstones_eq_ok {ts new ts' : List Tombstone} (h : new.foldlM insertTombstone ts = .ok ts') :
    ts' = ts ++ new := by
  induction new generalizing ts with
  | nil =>
    obtain rfl := Except.ok.inj h
    rw [List.append_nil]
  | cons t new ih =>
    rw [List.foldlM_cons] at h
    obtain ⟨ts₁, h₁, h⟩ := bind_eq_ok.mp h
    rw [ih h, insertTombstone_eq_ok h₁, List.append_assoc, List.singleton_append]

theorem digestLifecycleSubject_eq_ok {env : Env} {kind : LifecycleSubjectKind} {id digest : String}
    (h : digestLifecycleSubject env kind id = .ok digest) : digest = subjectDigest env kind id := by
  unfold digestLifecycleSubject at h
  split at h
  · cases h
  · exact (Except.ok.inj h).symm

theorem digests_eq_ok {α : Type} {env : Env} {kind : LifecycleSubjectKind} {f : α → String} {as : List α}
    {digests : List String} (h : (as.mapM fun a => digestLifecycleSubject env kind (f a)) = .ok digests) :
    digests = as.map fun a => subjectDigest env kind (f a) := by
  have hall := mapM_eq_ok.mp h
  clear h
  induction hall with
  | nil => rfl
  | cons hd _ ih => rw [List.map_cons, digestLifecycleSubject_eq_ok hd, ih]

theorem mem_tombstones {input : DeletionInput} {ids : ℕ → String} {userDigest : String} {objects : List String}
    {t : Tombstone} (h : t ∈ input.tombstones ids userDigest objects) : ∃ id s, t = input.tombstone id s := by
  rcases List.mem_cons.mp h with rfl | h
  · exact ⟨_, _, rfl⟩
  · obtain ⟨i, hi, rfl⟩ := List.mem_mapIdx.mp h
    exact ⟨_, _, rfl⟩

theorem tombstones_of_mem {input : DeletionInput} {ids : ℕ → String} {userDigest digest : String}
    {objects : List String} (h : digest ∈ objects) :
    ∃ id, input.tombstone id ⟨.object, digest⟩ ∈ input.tombstones ids userDigest objects := by
  obtain ⟨i, hi, rfl⟩ := List.getElem_of_mem h
  exact ⟨ids (i + 1), List.mem_cons_of_mem _ (List.mem_mapIdx.mpr ⟨i, hi, rfl⟩)⟩

/-- **An account deletion that returns** added a tombstone for each subject, and an event. -/
theorem prepareAccountDeletionLifecycle_eq_ok {env : Env} {ids : ℕ → String} {eventId : String} {input : DeletionInput}
    {db db' : Db} {r : AccountDeletionLifecycle}
    (h : prepareAccountDeletionLifecycle env ids eventId input db = .ok (db', r)) :
    ∃ new e, (∀ t ∈ new, t.backupDeletedAt = none) ∧
      (∀ s ∈ input.subjects env, ∃ t ∈ new, t.subject = s ∧
        t.tombstoneExpiresAt = addDays input.now tombstoneDays) ∧
      e.eventType = .deletionPrimaryComplete ∧
      db' = { db with
        deletionTombstones := db.deletionTombstones ++ new
        dataLifecycleEvents := db.dataLifecycleEvents ++ [e] } := by
  obtain ⟨userDigest, hu, h⟩ := bind_eq_ok.mp h
  obtain ⟨_, -, h⟩ := bind_eq_ok.mp h
  obtain ⟨_, -, h⟩ := bind_eq_ok.mp h
  obtain ⟨objects, ho, h⟩ := bind_eq_ok.mp h
  obtain ⟨ts, ht, h⟩ := bind_eq_ok.mp h
  obtain ⟨db₁, he, h⟩ := bind_eq_ok.mp h
  obtain rfl := insertTombstones_eq_ok ht
  obtain ⟨rfl, -⟩ := insertEvent_eq_ok he
  cases h
  refine ⟨_, _, fun t hm => ?_, fun s hs => ?_, rfl, rfl⟩
  · obtain ⟨id, s, rfl⟩ := mem_tombstones hm
    rfl
  · rcases List.mem_cons.mp hs with rfl | hs
    · exact ⟨_, List.mem_cons_self, by rw [← digestLifecycleSubject_eq_ok hu]; rfl, rfl⟩
    · obtain ⟨o, hmem, rfl⟩ := List.mem_map.mp hs
      have hd : subjectDigest env .object o.subjectId ∈ objects := by
        rw [digests_eq_ok ho]
        exact List.mem_map_of_mem hmem
      obtain ⟨id, hm⟩ := tombstones_of_mem hd
      exact ⟨_, hm, rfl, rfl⟩

/-! ### Restore -/

theorem insertRestoreTest_eq_ok {t : RestoreTest} {db db' : Db} (h : insertRestoreTest t db = .ok db') :
    db' = { db with backupRestoreTests := db.backupRestoreTests ++ [t] } := by
  unfold insertRestoreTest at h
  split_ifs at h
  exact (Except.ok.inj h).symm

/-- **An evaluation that returns** found an available copy that is not due, and wrote a test and an event. -/
theorem evaluateRestoreCandidate_eq_ok {env : Env} {testId eventId : String} {now : ℤ} {input : RestoreInput}
    {db db' : Db} {r : RestoreEvaluation}
    (h : evaluateRestoreCandidate env testId eventId now input db = .ok (db', r)) :
    ∃ b t e, b ∈ db.backupRecords ∧ b.id = input.backupId ∧ b.status = .available ∧ now < b.deleteAfter ∧
      (r.result = .eligible → db.blockedSubjects input.backupId now = []) ∧
      e.eventType ∈ [EventType.restoreEligible, .restoreBlocked] ∧
      db' = { db with
        backupRestoreTests := db.backupRestoreTests ++ [t]
        dataLifecycleEvents := db.dataLifecycleEvents ++ [e] } := by
  obtain ⟨_, -, h⟩ := bind_eq_ok.mp h
  split at h
  · cases h
  · rename_i b hfind
    obtain ⟨_, -, h⟩ := bind_eq_ok.mp h
    obtain ⟨_, hready, h⟩ := bind_eq_ok.mp h
    obtain ⟨db₁, ht, h⟩ := bind_eq_ok.mp h
    obtain ⟨db₂, he, h⟩ := bind_eq_ok.mp h
    obtain rfl := insertRestoreTest_eq_ok ht
    obtain ⟨rfl, -⟩ := insertEvent_eq_ok he
    cases h
    obtain ⟨hav, hdue⟩ := not_or.mp (refuse_eq_ok.mp hready)
    obtain ⟨hb, hid⟩ := Table.find_some hfind
    refine ⟨b, _, _, hb, hid, not_not.mp hav, not_le.mp hdue, fun hel => ?_, ?_, rfl⟩
    · by_contra hne
      rw [if_neg (fun h0 => hne (List.length_eq_zero_iff.mp h0))] at hel
      cases hel
    · by_cases h0 : (db.blockedSubjects input.backupId now).length = 0 <;> simp [h0]

/-! ### The statements of a run -/

/-- **A commit that returns** completed the backup where it was still being deleted, marked the
tombstones of its subjects that no other copy keeps open, and filed the event in any case. -/
theorem commitDeletion_eq_ok {env : Env} {eventId : String} {now : ℤ} {b : BackupRecord} {db db' : Db}
    (h : commitDeletion env eventId now b db = .ok db') :
    db'.toAmbient = db.toAmbient ∧
    (db'.backupRecords = Table.update (fun r => r.id = b.id && r.status = .deleting) (BackupRecord.completed now)
      db.backupRecords) ∧
    db'.backupSubjects = db.backupSubjects ∧
    db'.dataLifecycleEvents = db.dataLifecycleEvents ++
      [runEvent env eventId .backupDeleted "retention-expiry" [] now b] ∧
    ∃ p, (∀ t, p t = true → db'.allDeleted t.subject = true) ∧
      db'.deletionTombstones = Table.update p (fun t => { t with backupDeletedAt := some now })
        db.deletionTombstones := by
  obtain ⟨db₁, h₁, h₂⟩ := bind_eq_ok.mp h
  obtain ⟨rfl, -⟩ := setBackupDeleted_eq_ok h₁
  obtain ⟨rfl, -⟩ := insertEvent_eq_ok h₂
  refine ⟨rfl, rfl, rfl, rfl, _, fun t ht => ?_, rfl⟩
  simp only [Bool.and_eq_true] at ht
  exact ht.2

/-! ### The sweep -/

/-- **An execution that returns** removed backups that are deleted, with their subjects, marked
tombstones that no copy keeps open, and removed tombstones that are past their expiry. -/
theorem runPrimaryRetentionSweep_eq_ok {env : Env} {eventId : String} {now : ℤ} {evidenceReference : Option String}
    {db db' : Db} {c : Counts} (hk : db.Keyed)
    (h : runPrimaryRetentionSweep env eventId now true evidenceReference db = .ok (db', c)) :
    ∃ ids : List String, (∀ b ∈ db.backupRecords, b.id ∈ ids → b.status = .deleted) ∧
      (db'.backupRecords = db.backupRecords.filter fun b => b.id ∉ ids) ∧
      (db'.backupSubjects = db.backupSubjects.filter fun r => r.backupId ∉ ids) ∧
      ∃ p, (∀ t, p t = true → db'.allDeleted t.subject = true) ∧
        db'.deletionTombstones = (Table.update p (fun t => { t with backupDeletedAt := some now })
          db.deletionTombstones).filter fun t => !t.expired now := by
  unfold runPrimaryRetentionSweep at h
  simp only [if_true, sweepQuery] at h
  obtain ⟨db₁, h₁, h⟩ := bind_eq_ok.mp h
  obtain ⟨db₂, h₂, h⟩ := bind_eq_ok.mp h
  obtain ⟨_, -, h⟩ := bind_eq_ok.mp h
  obtain ⟨_, h₃, h⟩ := bind_eq_ok.mp h
  obtain ⟨rfl, -⟩ := Prod.mk.inj (Except.ok.inj h)
  obtain ⟨ht, hr, hs⟩ := deleteSelected_eq_ok h₁
  obtain ⟨rfl, -⟩ := setBackupDeleted_eq_ok h₂
  obtain ⟨rfl, -⟩ := insertEvent_eq_ok h₃
  refine ⟨_, fun b hb hid => ?_, hr, hs, _, fun t htp => ?_, by rw [ht]⟩
  · exact selected_deleted (by exact hk) (by exact hb) hid
  · simp only [Db.finalizable, Bool.and_eq_true] at htp
    exact htp.2

end Forge.Lifecycle
