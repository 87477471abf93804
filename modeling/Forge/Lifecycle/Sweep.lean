import Mathlib.Logic.Equiv.Basic
import Forge.Lifecycle.Backups

/-!
# The retention sweep

`runPrimaryRetentionSweep` (`dataLifecycle.ts`) in both modes. The rules come first,
each as a predicate on the rows of its table; a dry run counts the rows that satisfy
them, and an execution deletes or updates the rows in the order of the source.

The two modes count the same rows but for one rule (`execute_counts`): an execution
finalises tombstones before it deletes the expired ones, so that those of them
which were both due to be finalised and past their expiry are deleted as well,
while a dry run counts the expired ones of the state it finds
(`preview_eq_execute_iff`).
-/

namespace Forge.Lifecycle

/-! ### The rules -/

/-- `expires <= $1` -/
def Session.expired (now : ℤ) (s : Session) : Bool := s.expires ≤ now

def VerificationToken.expired (now : ℤ) (t : VerificationToken) : Bool := t.expires ≤ now

/-- An audit hold names a record of one kind. -/
def auditHeld (env : Env) (holds : List HoldEvent) (now : ℤ) (kind id : String) : Bool :=
  held holds ⟨.audit, subjectDigest env .audit (kind ++ "/" ++ id)⟩ now

/-- A user hold names the owner of a row, where it has one. -/
def ownerHeld (env : Env) (holds : List HoldEvent) (now : ℤ) (owner : Option String) : Bool :=
  owner.any fun u => held holds ⟨.user, subjectDigest env .user u⟩ now

def GenerationRefusal.expired (env : Env) (holds : List HoldEvent) (now : ℤ) (r : GenerationRefusal) : Bool :=
  r.createdAt ≤ now - 90 * day && !ownerHeld env holds now r.ownerUserId &&
    !auditHeld env holds now "generation-refusal" r.id

def JobRow.expired (env : Env) (holds : List HoldEvent) (now : ℤ) (j : JobRow) : Bool :=
  j.status.terminal && j.finishedAt.getD j.createdAt ≤ now - 30 * day && !ownerHeld env holds now j.ownerUserId &&
    !auditHeld env holds now "job" j.id

/-- The whole chain of the event is older than 400 days, and its latest event is no active hold. -/
def HoldEvent.expired (holds : List HoldEvent) (now : ℤ) (e : HoldEvent) : Bool :=
  (holds.all fun f => !e.sameChain f || f.createdAt ≤ now - 400 * day) &&
    (latestHolds holds).all fun f => !e.sameChain f || !f.active now

def RestoreTest.expired (env : Env) (holds : List HoldEvent) (now : ℤ) (t : RestoreTest) : Bool :=
  t.testedAt ≤ now - 400 * day && !auditHeld env holds now "backup-restore" t.id

def BackupRecord.expired (env : Env) (holds : List HoldEvent) (tests : List RestoreTest) (now : ℤ)
    (b : BackupRecord) : Bool :=
  b.status = .deleted && (b.deletedAt.any fun d => d ≤ now - 400 * day) && !auditHeld env holds now "backup" b.id &&
    !tests.any fun t => t.backupId = b.id &&
      (now - 400 * day < t.testedAt || auditHeld env holds now "backup-restore" t.id)

def LifecycleEvent.expired (env : Env) (holds : List HoldEvent) (now : ℤ) (e : LifecycleEvent) : Bool :=
  e.createdAt ≤ now - 400 * day && !auditHeld env holds now "lifecycle-event" e.id

/-- The tombstones that a sweep marks as backup-complete. -/
def Db.finalizable (db : Db) (now : ℤ) (t : Tombstone) : Bool :=
  t.backupDeletedAt = none && t.backupDeleteAfter ≤ now && db.allDeleted t.subject

/-- The tombstones that a sweep deletes. -/
def Tombstone.expired (now : ℤ) (t : Tombstone) : Bool := t.backupDeletedAt ≠ none && t.tombstoneExpiresAt ≤ now

/-! ### The sweep -/

structure Counts where
  expiredSessions : ℕ
  expiredVerificationTokens : ℕ
  expiredRefusalAudits : ℕ
  expiredJobs : ℕ
  expiredLegalHoldEvents : ℕ
  expiredBackupRestoreTests : ℕ
  expiredBackupRecords : ℕ
  expiredLifecycleEvents : ℕ
  finalizedTombstones : ℕ
  expiredTombstones : ℕ
deriving DecidableEq

/-- `JSON.stringify(counts)` -/
def Counts.details (c : Counts) : List (String × String) :=
  [("expiredSessions", toString c.expiredSessions), ("expiredVerificationTokens", toString c.expiredVerificationTokens),
   ("expiredRefusalAudits", toString c.expiredRefusalAudits), ("expiredJobs", toString c.expiredJobs),
   ("expiredLegalHoldEvents", toString c.expiredLegalHoldEvents),
   ("expiredBackupRestoreTests", toString c.expiredBackupRestoreTests),
   ("expiredBackupRecords", toString c.expiredBackupRecords),
   ("expiredLifecycleEvents", toString c.expiredLifecycleEvents),
   ("finalizedTombstones", toString c.finalizedTombstones), ("expiredTombstones", toString c.expiredTombstones)]

/-- One rule of the list `queries`: `DELETE … WHERE p` with its row count, or `SELECT count(*) … WHERE p`. -/
def sweepQuery {ρ : Type} (execute : Bool) (p : ρ → Bool) (t : List ρ) : List ρ × ℕ :=
  if execute then (t.filter fun r => !p r, t.countP p) else (t, t.countP p)

/-- `DELETE FROM legal_hold_events WHERE id = $1`, which an event that follows the deleted one restricts. -/
def deleteHoldEvent (holds : List HoldEvent) (e : HoldEvent) : Except Failure (List HoldEvent) :=
  if holds.any fun f => f.previousEventId = some e.id && f.id ≠ e.id then .error (.constraint "legal_hold_events")
  else .ok (holds.filter fun f => f.id ≠ e.id)

/-- `DELETE FROM backup_records WHERE id = ANY($1)`, which restore tests restrict and the subjects follow. -/
def deleteBackupRecords (ids : List String) (db : Db) : Except Failure Db :=
  if db.backupRestoreTests.any fun t => t.backupId ∈ ids then .error (.constraint "backup_records")
  else .ok { db with
    backupRecords := db.backupRecords.filter fun b => b.id ∉ ids
    backupSubjects := db.backupSubjects.filter fun r => r.backupId ∉ ids }

/-- The rows that the sweep selects before it deletes any of them. -/
structure Selected where
  holdEvents : List HoldEvent
  restoreTests : List RestoreTest
  backupRecords : List BackupRecord
  lifecycleEvents : List LifecycleEvent

def selectExpired (env : Env) (now : ℤ) (db : Db) : Selected where
  holdEvents := (db.legalHoldEvents.filter (HoldEvent.expired db.legalHoldEvents now)).mergeSort fun e f =>
    f.eventSequence ≤ e.eventSequence
  restoreTests := db.backupRestoreTests.filter (RestoreTest.expired env db.legalHoldEvents now)
  backupRecords := db.backupRecords.filter
    (BackupRecord.expired env db.legalHoldEvents db.backupRestoreTests now)
  lifecycleEvents := db.dataLifecycleEvents.filter (LifecycleEvent.expired env db.legalHoldEvents now)

/-- The deletion of the selected rows. -/
def deleteSelected (r : Selected) (db : Db) : Except Failure Db := do
  let legalHoldEvents ← r.holdEvents.foldlM deleteHoldEvent db.legalHoldEvents
  let backupRestoreTests := db.backupRestoreTests.filter fun t => t.id ∉ r.restoreTests.map RestoreTest.id
  let db ← deleteBackupRecords (r.backupRecords.map BackupRecord.id) { db with legalHoldEvents, backupRestoreTests }
  return { db with
    dataLifecycleEvents := db.dataLifecycleEvents.filter fun e => e.id ∉ r.lifecycleEvents.map LifecycleEvent.id }

/-- `input.evidenceReference ? boundedReference(…) : null` -/
def sweepEvidence (evidenceReference : Option String) : Except Failure (Option String) :=
  match evidenceReference with
  | none => .ok none
  | some r => if r = "" then .ok none else some <$> boundedReference r "evidenceReference" 200

/-- `runPrimaryRetentionSweep` -/
def runPrimaryRetentionSweep (env : Env) (eventId : String) (now : ℤ) (execute : Bool)
    (evidenceReference : Option String) (db : Db) : Except Failure (Db × Counts) := do
  let sessions := sweepQuery execute (Session.expired now) db.sessions
  let db := { db with sessions := sessions.1 }
  let tokens := sweepQuery execute (VerificationToken.expired now) db.verificationTokens
  let db := { db with verificationTokens := tokens.1 }
  let refusals := sweepQuery execute (GenerationRefusal.expired env db.legalHoldEvents now) db.generationRefusals
  let db := { db with generationRefusals := refusals.1 }
  let jobs := sweepQuery execute (JobRow.expired env db.legalHoldEvents now) db.jobs
  let db := { db with jobs := jobs.1 }
  let selected := selectExpired env now db
  let counts : Counts :=
    { expiredSessions := sessions.2, expiredVerificationTokens := tokens.2, expiredRefusalAudits := refusals.2,
      expiredJobs := jobs.2, expiredLegalHoldEvents := selected.holdEvents.length,
      expiredBackupRestoreTests := selected.restoreTests.length,
      expiredBackupRecords := selected.backupRecords.length,
      expiredLifecycleEvents := selected.lifecycleEvents.length, finalizedTombstones := 0, expiredTombstones := 0 }
  if execute then
    let db ← deleteSelected selected db
    let counts := { counts with finalizedTombstones := db.deletionTombstones.countP (db.finalizable now) }
    let db ← setBackupDeleted now (db.finalizable now) db
    let counts := { counts with expiredTombstones := db.deletionTombstones.countP (Tombstone.expired now) }
    let db := { db with deletionTombstones := db.deletionTombstones.filter fun t => !t.expired now }
    let evidenceReference ← sweepEvidence evidenceReference
    let db ← insertEvent
      { id := eventId, eventType := .retentionSweep, subjectKind := none, subjectDigest := none,
        actorKind := .system, reasonCode := "scheduled-retention", evidenceReference, details := counts.details,
        createdAt := now } db
    return (db, counts)
  else
    -- both counts are taken of the same tombstones: what would be finalised does not yet count as expired
    return (db, { counts with
      finalizedTombstones := db.deletionTombstones.countP (db.finalizable now)
      expiredTombstones := db.deletionTombstones.countP (Tombstone.expired now) })

/-! ### What the statements keep -/

theorem setBackupDeleted_eq_ok {now : ℤ} {p : Tombstone → Bool} {db db' : Db} (h : setBackupDeleted now p db = .ok db') :
    db' = { db with
      deletionTombstones := Table.update p (fun t => { t with backupDeletedAt := some now }) db.deletionTombstones } ∧
    ∀ t ∈ db'.deletionTombstones, t.checks = true := by
  simp only [setBackupDeleted] at h
  split_ifs at h with hc
  cases h
  exact ⟨rfl, List.all_eq_true.mp hc⟩

theorem insertEvent_eq_ok {e : LifecycleEvent} {db db' : Db} (h : insertEvent e db = .ok db') :
    db' = { db with dataLifecycleEvents := db.dataLifecycleEvents ++ [e] } ∧
    e.id ∉ db.dataLifecycleEvents.map LifecycleEvent.id := by
  unfold insertEvent at h
  split_ifs at h with hc
  cases h
  exact ⟨rfl, fun hm => hc (.inl hm)⟩

theorem deleteBackupRecords_eq_ok {ids : List String} {db db' : Db} (h : deleteBackupRecords ids db = .ok db') :
    db' = { db with
      backupRecords := db.backupRecords.filter fun b => b.id ∉ ids
      backupSubjects := db.backupSubjects.filter fun r => r.backupId ∉ ids } := by
  unfold deleteBackupRecords at h
  split_ifs at h
  exact (Except.ok.inj h).symm

/-- The tables after the deletion of the selected rows. -/
theorem deleteSelected_eq_ok {r : Selected} {db db' : Db} (h : deleteSelected r db = .ok db') :
    db'.deletionTombstones = db.deletionTombstones ∧
    (db'.backupRecords = db.backupRecords.filter fun b => b.id ∉ r.backupRecords.map BackupRecord.id) ∧
    db'.backupSubjects = db.backupSubjects.filter fun s => s.backupId ∉ r.backupRecords.map BackupRecord.id := by
  obtain ⟨holds, -, h⟩ := bind_eq_ok.mp h
  obtain ⟨db₁, h₁, h⟩ := bind_eq_ok.mp h
  obtain rfl := deleteBackupRecords_eq_ok h₁
  cases h
  exact ⟨rfl, rfl, rfl⟩

/-- A row that the sweep selects under its primary key is a deleted backup. -/
theorem selected_deleted {env : Env} {now : ℤ} {db : Db} (hk : db.Keyed) {b : BackupRecord} (hb : b ∈ db.backupRecords)
    (hid : b.id ∈ (selectExpired env now db).backupRecords.map BackupRecord.id) : b.status = .deleted := by
  obtain ⟨c, hc, he⟩ := List.mem_map.mp hid
  obtain ⟨hc, hp⟩ := List.mem_filter.mp hc
  obtain rfl := List.inj_on_of_nodup_map hk hc hb he
  simp only [BackupRecord.expired, Bool.and_eq_true, decide_eq_true_eq] at hp
  exact hp.1.1.1

/-- Deleted backups that leave the catalog, with their subjects, finalise no tombstone. -/
theorem deleteSelected_allDeleted {env : Env} {now : ℤ} {db db' : Db} (hk : db.Keyed)
    (h : deleteSelected (selectExpired env now db) db = .ok db') (s : Subject) :
    db'.allDeleted s = db.allDeleted s := by
  obtain ⟨-, hr, hs⟩ := deleteSelected_eq_ok h
  rw [Bool.eq_iff_iff, Db.allDeleted_iff, Db.allDeleted_iff, hr, hs]
  constructor
  · intro hall r hm hrs b hb hid
    by_cases hsel : b.id ∈ (selectExpired env now db).backupRecords.map BackupRecord.id
    · exact selected_deleted hk hb hsel
    · refine hall r (List.mem_filter.mpr ⟨hm, ?_⟩) hrs b (List.mem_filter.mpr ⟨hb, by simpa using hsel⟩) hid
      simpa [hid] using hsel
  · intro hall r hm hrs b hb hid
    exact hall r (List.mem_of_mem_filter hm) hrs b (List.mem_of_mem_filter hb) hid

/-! ### The two modes -/

/-- The counts of a dry run, which always returns and changes nothing. -/
def preview (env : Env) (now : ℤ) (db : Db) : Counts where
  expiredSessions := db.sessions.countP (Session.expired now)
  expiredVerificationTokens := db.verificationTokens.countP (VerificationToken.expired now)
  expiredRefusalAudits := db.generationRefusals.countP (GenerationRefusal.expired env db.legalHoldEvents now)
  expiredJobs := db.jobs.countP (JobRow.expired env db.legalHoldEvents now)
  expiredLegalHoldEvents := (selectExpired env now db).holdEvents.length
  expiredBackupRestoreTests := (selectExpired env now db).restoreTests.length
  expiredBackupRecords := (selectExpired env now db).backupRecords.length
  expiredLifecycleEvents := (selectExpired env now db).lifecycleEvents.length
  finalizedTombstones := db.deletionTombstones.countP (db.finalizable now)
  expiredTombstones := db.deletionTombstones.countP (Tombstone.expired now)

theorem dryRun_eq (env : Env) (eventId : String) (now : ℤ) (evidenceReference : Option String) (db : Db) :
    runPrimaryRetentionSweep env eventId now false evidenceReference db = .ok (db, preview env now db) := rfl

/-- A tombstone that one sweep both finalises and finds past its expiry. -/
def Db.finalizedExpired (db : Db) (now : ℤ) (t : Tombstone) : Bool :=
  db.finalizable now t && t.tombstoneExpiresAt ≤ now

/-- Finalising tombstones adds to the expired ones those that were due. -/
theorem countP_expired_update (db : Db) (now : ℤ) (ts : List Tombstone) :
    (Table.update (db.finalizable now) (fun t => { t with backupDeletedAt := some now }) ts).countP
      (Tombstone.expired now) = ts.countP (Tombstone.expired now) + ts.countP (db.finalizedExpired now) := by
  induction ts with
  | nil => rfl
  | cons t ts ih =>
    rw [Table.update] at ih
    rw [Table.update, List.map_cons, List.countP_cons, List.countP_cons, List.countP_cons, ih]
    by_cases hf : db.finalizable now t = true
    · have hnone : t.backupDeletedAt = none := by
        simp only [Db.finalizable, Bool.and_eq_true, decide_eq_true_eq] at hf
        exact hf.1.1
      by_cases he : t.tombstoneExpiresAt ≤ now
      · simp [hf, he, hnone, Tombstone.expired, Db.finalizedExpired, Nat.add_assoc]
      · simp [hf, he, hnone, Tombstone.expired, Db.finalizedExpired]
    · simp only [hf, Db.finalizedExpired]
      simp only [Bool.false_and, Bool.false_eq_true, if_false]
      omega

/-- **An execution counts what the dry run counts**, and one rule counts more: the tombstones that
the sweep itself finalises and then finds past their expiry. -/
theorem execute_counts {env : Env} {eventId : String} {now : ℤ} {evidenceReference : Option String} {db db' : Db}
    {c : Counts} (hk : db.Keyed)
    (h : runPrimaryRetentionSweep env eventId now true evidenceReference db = .ok (db', c)) :
    c = { preview env now db with
      expiredTombstones := (preview env now db).expiredTombstones +
        db.deletionTombstones.countP (db.finalizedExpired now) } := by
  unfold runPrimaryRetentionSweep at h
  simp only [if_true, sweepQuery] at h
  obtain ⟨db₁, h₁, h⟩ := bind_eq_ok.mp h
  obtain ⟨db₂, h₂, h⟩ := bind_eq_ok.mp h
  obtain ⟨_, -, h⟩ := bind_eq_ok.mp h
  obtain ⟨_, -, h⟩ := bind_eq_ok.mp h
  obtain ⟨-, rfl⟩ := Prod.mk.inj (Except.ok.inj h)
  obtain ⟨ht, -, -⟩ := deleteSelected_eq_ok h₁
  -- the four queries before touch none of the tables this depends on
  have hall : ∀ s, db₁.allDeleted s = db.allDeleted s := by
    have hkept := deleteSelected_allDeleted (by exact hk) h₁
    exact hkept
  have hfin : db₁.finalizable now = db.finalizable now := funext fun t => by
    rw [Db.finalizable, Db.finalizable, hall]
  obtain ⟨rfl, -⟩ := setBackupDeleted_eq_ok h₂
  simp only [hfin, ht, countP_expired_update]
  rfl

/-- **Preview of the sweep**: the counts of a dry run are those of an execution of the same state at
the same time if and only if no tombstone is both due to be finalised and past its expiry. -/
theorem preview_eq_execute_iff (env : Env) (eventId eventId' : String) (now : ℤ) (evidence evidence' : Option String)
    (db db₁ db₂ : Db) (dry executed : Counts) (hk : db.Keyed)
    (hdry : runPrimaryRetentionSweep env eventId now false evidence db = .ok (db₁, dry))
    (hexec : runPrimaryRetentionSweep env eventId' now true evidence' db = .ok (db₂, executed)) :
    dry = executed ↔
      ∀ t ∈ db.deletionTombstones, db.finalizable now t = true → now < t.tombstoneExpiresAt := by
  obtain ⟨-, rfl⟩ := Prod.mk.inj (Except.ok.inj ((dryRun_eq env eventId now evidence db).symm.trans hdry))
  rw [execute_counts hk hexec]
  have hzero : (∀ t ∈ db.deletionTombstones, db.finalizable now t = true → now < t.tombstoneExpiresAt) ↔
      db.deletionTombstones.countP (db.finalizedExpired now) = 0 := by
    rw [List.countP_eq_zero]
    refine forall₂_congr fun t _ => ?_
    simp [Db.finalizedExpired]
  rw [hzero]
  constructor
  · intro h
    have := congrArg Counts.expiredTombstones h
    simp only at this
    omega
  · intro h
    rw [h]
    rfl

/-- The digest of the account `user-1`. -/
def userDigest : String := "8b08eb270d43a6f37e03a60917afd47dbe3c36150ef058843f21a4ebdda802a3"

/-- Settings for examples: the digests of one account and of one backup, and two dates. -/
def sampleEnv : Env where
  sha256 s := Equiv.swap "user:user-1" userDigest
    (Equiv.swap "backup:bkp-1" "8223afb7bf4b0b860e81984616ef8066908db1b52f9544eb367a44c4fafbeba9" s)
  date s :=
    if s = "2026-01-01T00:00:00.000Z" then some 1767225600000000
    else if s = "2026-01-31T00:00:00.000Z" then some 1769817600000000
    else none
  collate a b := a ≤ b

/-- An account deleted at time 0, listed by no backup, that no sweep has visited. -/
def unswept : Db := { Db.empty with
  deletionTombstones := [{
    id := "tmb-1", deletionId := "del-1", subject := ⟨.user, userDigest⟩, primaryDeletedAt := 0,
    backupDeleteAfter := 30 * day, tombstoneExpiresAt := 45 * day, backupDeletedAt := none }] }

/-- The executions on day 40 and on day 46 return. -/
theorem unswept_executes {now : ℤ} (h : now = 40 * day ∨ now = 46 * day) :
    ∃ r, runPrimaryRetentionSweep sampleEnv "lce-1" now true none unswept = .ok r := by
  have hsome : (runPrimaryRetentionSweep sampleEnv "lce-1" now true none unswept).toOption.isSome = true := by
    rcases h with rfl | rfl
    · decide +kernel
    · decide +kernel
  obtain ⟨r, hr⟩ := Option.isSome_iff_exists.mp hsome
  exact ⟨r, toOption_eq_some_iff.mp hr⟩

/-- On day 46 the dry run counts no expired tombstone, and the execution deletes one. -/
theorem preview_differs_unswept : ¬ ∀ (env : Env) (eventId eventId' : String) (now : ℤ)
    (evidence evidence' : Option String) (db db₁ db₂ : Db) (dry executed : Counts), db.Keyed →
    runPrimaryRetentionSweep env eventId now false evidence db = .ok (db₁, dry) →
    runPrimaryRetentionSweep env eventId' now true evidence' db = .ok (db₂, executed) → dry = executed := by
  intro h
  obtain ⟨r, hexec⟩ := unswept_executes (.inr rfl)
  have hk : unswept.Keyed := by decide
  have heq := h sampleEnv "lce-1" "lce-1" (46 * day) none none unswept unswept r.1 _ r.2 hk (dryRun_eq ..) hexec
  have hcount := congrArg Counts.expiredTombstones (heq.trans (execute_counts hk hexec))
  have hone : unswept.deletionTombstones.countP (unswept.finalizedExpired (46 * day)) = 1 := by decide +kernel
  rw [hone] at hcount
  exact Nat.succ_ne_self _ hcount.symm

/-- On day 40 the same state is due to be finalised and not past its expiry. -/
theorem preview_exact_unswept : ∃ r, runPrimaryRetentionSweep sampleEnv "lce-1" (40 * day) true none unswept = .ok r ∧
    preview sampleEnv (40 * day) unswept = r.2 := by
  obtain ⟨r, hexec⟩ := unswept_executes (.inl rfl)
  exact ⟨r, hexec, (preview_eq_execute_iff sampleEnv "lce-1" "lce-1" (40 * day) none none unswept unswept r.1 _ r.2
    (by decide) (dryRun_eq ..) hexec).mpr (by decide +kernel)⟩

end Forge.Lifecycle
