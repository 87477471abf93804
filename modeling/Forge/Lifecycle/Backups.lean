import Forge.Data.Except
import Forge.Lifecycle.Model

/-!
# Data lifecycle: deletion, registration, restore and expiry

The transactions of `dataLifecycle.ts` on tombstones and backups, each a function
from the tables to the tables it commits or to the way it fails; a transaction that
fails commits nothing. `deleteExpiredBackups` is not one transaction, and its
statements stand here one by one.

Identifiers that a call draws at random are parameters.
-/

namespace Forge.Lifecycle

open Queue (GatewayError)

/-! ### Tombstones -/

/-- The `CHECK` constraints of `deletion_tombstones`. -/
def Tombstone.checks (t : Tombstone) : Bool :=
  t.subject.kind ≠ .audit && t.primaryDeletedAt < t.backupDeleteAfter && t.backupDeleteAfter < t.tombstoneExpiresAt &&
    t.backupDeletedAt.all fun d => t.primaryDeletedAt ≤ d

/-- `INSERT INTO deletion_tombstones` -/
def insertTombstone (ts : List Tombstone) (t : Tombstone) : Except Failure (List Tombstone) :=
  if t.id ∈ ts.map Tombstone.id ∨ t.subject ∈ ts.map Tombstone.subject ∨ t.checks = false then
    .error (.constraint "deletion_tombstones")
  else .ok (ts ++ [t])

structure ObjectKey where
  bucket : String
  objectKey : String
deriving DecidableEq

/-- The subject id of an object. -/
def ObjectKey.subjectId (o : ObjectKey) : String := o.bucket ++ "/" ++ o.objectKey

structure DeletionInput where
  userId : String
  objectKeys : List ObjectKey
  deletionId : String
  now : ℤ

/-- The row for one subject of an account deletion. -/
def DeletionInput.tombstone (input : DeletionInput) (id : String) (s : Subject) : Tombstone where
  id := id
  deletionId := input.deletionId
  subject := s
  primaryDeletedAt := input.now
  backupDeleteAfter := addDays input.now backupMaxDays
  tombstoneExpiresAt := addDays input.now tombstoneDays
  backupDeletedAt := none

structure AccountDeletionLifecycle where
  deletionId : String
  userDigest : String
  tombstoneId : String
  backupDeleteAfter : ℤ
  tombstoneExpiresAt : ℤ
  objectTombstoneCount : ℕ

/-- The rows of an account deletion: the account first, then each object. -/
def DeletionInput.tombstones (input : DeletionInput) (ids : ℕ → String) (userDigest : String)
    (objects : List String) : List Tombstone :=
  input.tombstone (ids 0) ⟨.user, userDigest⟩ ::
    objects.mapIdx fun k digest => input.tombstone (ids (k + 1)) ⟨.object, digest⟩

/-- `prepareAccountDeletionLifecycle` -/
def prepareAccountDeletionLifecycle (env : Env) (ids : ℕ → String) (eventId : String) (input : DeletionInput)
    (db : Db) : Except Failure (Db × AccountDeletionLifecycle) := do
  let userDigest ← digestLifecycleSubject env .user input.userId
  let objectIds := (input.objectKeys.map ObjectKey.subjectId).eraseDups
  let lockedObjects ← objectIds.mapM fun id => digestLifecycleSubject env .object id
  let holds := (activeLegalHolds db.legalHoldEvents ⟨.user, userDigest⟩ input.now).length +
    (lockedObjects.map fun d => (activeLegalHolds db.legalHoldEvents ⟨.object, d⟩ input.now).length).sum
  refuse (holds ≠ 0) (.legalHoldActive holds)
  let objects ← input.objectKeys.mapM fun o => digestLifecycleSubject env .object o.subjectId
  let deletionTombstones ← (input.tombstones ids userDigest objects).foldlM insertTombstone db.deletionTombstones
  let db ← insertEvent
    { id := eventId, eventType := .deletionPrimaryComplete, subjectKind := some .user, subjectDigest := some userDigest,
      actorKind := .owner, reasonCode := "owner-account-deletion", evidenceReference := some input.deletionId,
      details := [("objectTombstoneCount", toString input.objectKeys.length)], createdAt := input.now }
    { db with deletionTombstones }
  return (db, { deletionId := input.deletionId, userDigest, tombstoneId := ids 0,
                backupDeleteAfter := addDays input.now backupMaxDays,
                tombstoneExpiresAt := addDays input.now tombstoneDays,
                objectTombstoneCount := input.objectKeys.length })

/-! ### Registration -/

structure RegisterInput where
  provider : String
  externalReference : String
  manifestSha256 : String
  capturedAt : String
  deleteAfter : String
  subjects : List (LifecycleSubjectKind × String)

/-- 64 lower-case hexadecimal digits. -/
def isSha256 (s : String) : Bool := s.length = 64 && s.toList.all fun c => c.isDigit || ('a' ≤ c && c ≤ 'f')

/-- `uniqueSubjects`: the subjects by kind and digest, each where it first appears. -/
def uniqueSubjects (env : Env) (subjects : List (LifecycleSubjectKind × String)) : Except Failure (List Subject) := do
  let all ← subjects.mapM fun s => do return (⟨s.1, ← digestLifecycleSubject env s.1 s.2⟩ : Subject)
  return all.eraseDups

/-- What one tombstone of a listed subject does to a registration. -/
def reconcileRow (backup : BackupRecord) (t : Tombstone) : Except Failure Tombstone :=
  if t.primaryDeletedAt < backup.capturedAt then
    .error (httpError 409 "backup subject was captured after primary deletion")
  else if t.tombstoneExpiresAt < backup.deleteAfter then
    .error (httpError 409 "backup deletion deadline exceeds the restore-suppression window")
  else .ok (if backup.status = .deleted then t else { t with backupDeletedAt := none })

/-- `reconcileBackupSubjectsWithTombstones` -/
def reconcileBackupSubjectsWithTombstones (backup : BackupRecord) (subjects : List Subject) (ts : List Tombstone) :
    Except Failure (List Tombstone) :=
  subjects.foldlM (fun ts s => ts.mapM fun t => if t.subject = s then reconcileRow backup t else .ok t) ts

/-- `INSERT INTO backup_records` -/
def insertBackup (b : BackupRecord) (db : Db) : Except Failure Db :=
  if b.id ∈ db.backupRecords.map BackupRecord.id ∨
      (b.provider, b.externalReference) ∈ db.backupRecords.map (fun b => (b.provider, b.externalReference)) ∨
      (b.provider.toList.all isReferenceChar && 2 ≤ b.provider.length && b.provider.length ≤ 80) = false ∨
      b.deleteAfter ≤ b.capturedAt then
    .error (.constraint "backup_records")
  else .ok { db with backupRecords := db.backupRecords ++ [b] }

/-- The subjects of a backup. -/
def Db.subjectsOf (db : Db) (backupId : String) : List Subject :=
  (db.backupSubjects.filter fun r => r.backupId = backupId).map BackupSubject.subject

/-- `INSERT INTO backup_subjects`, for each subject of a new backup. -/
def insertSubjects (backupId : String) (subjects : List Subject) (db : Db) : Except Failure Db :=
  if subjects.any (fun s => ⟨backupId, s⟩ ∈ db.backupSubjects) then .error (.constraint "backup_subjects")
  else .ok { db with backupSubjects := db.backupSubjects ++ subjects.map fun s => ⟨backupId, s⟩ }

/-- A registration under a reference that exists: the same copy again, or an error. -/
def registerExisting (b : BackupRecord) (input : RegisterInput) (capturedAt deleteAfter : ℤ) (subjects : List Subject)
    (db : Db) : Except Failure (Db × BackupRecord) := do
  refuse (b.manifestSha256 ≠ input.manifestSha256 ∨ b.capturedAt ≠ capturedAt ∨ b.deleteAfter ≠ deleteAfter)
    (httpError 409 "backup reference was reused with different metadata")
  refuse ((db.subjectsOf b.id).isPerm subjects = false)
    (httpError 409 "backup reference was reused with a different subject manifest")
  let deletionTombstones ← reconcileBackupSubjectsWithTombstones b subjects db.deletionTombstones
  return ({ db with deletionTombstones }, b)

/-- A registration under a new reference. -/
def registerNew (env : Env) (id eventId : String) (now : ℤ) (input : RegisterInput) (capturedAt deleteAfter : ℤ)
    (subjects : List Subject) (db : Db) : Except Failure (Db × BackupRecord) := do
  let b : BackupRecord :=
    { id, provider := input.provider, externalReference := input.externalReference,
      manifestSha256 := input.manifestSha256, capturedAt, deleteAfter, status := .available, deletedAt := none,
      lastErrorCode := none, createdAt := now, updatedAt := now }
  let db ← insertBackup b db
  let db ← insertSubjects id subjects db
  let db ← insertEvent
    { id := eventId, eventType := .backupRegistered, subjectKind := some .backup,
      subjectDigest := some (backupDigest env id), actorKind := .operator, reasonCode := "catalogued-backup",
      evidenceReference := some input.externalReference, details := [("subjectCount", toString subjects.length)],
      createdAt := now } db
  let deletionTombstones ← reconcileBackupSubjectsWithTombstones b subjects db.deletionTombstones
  return ({ db with deletionTombstones }, b)

/-- The checks of a registration that read no table: its dates and its subjects. -/
def checkRegistration (env : Env) (now : ℤ) (input : RegisterInput) : Except Failure (ℤ × ℤ × List Subject) := do
  let _ ← boundedReference input.provider "provider" 80
  let _ ← boundedReference input.externalReference "externalReference" 200
  refuse (isSha256 input.manifestSha256 = false) (httpError 400 "backup manifest SHA-256 is invalid")
  match env.date input.capturedAt, env.date input.deleteAfter with
  | some capturedAt, some deleteAfter =>
    refuse (deleteAfter ≤ capturedAt) (httpError 400 "backup capture/delete timestamps are invalid")
    refuse (addDays capturedAt backupMaxDays < deleteAfter)
      (httpError 400 s!"backup retention exceeds {backupMaxDays} days")
    refuse (now + 5 * minute < capturedAt) (httpError 400 "backup capture time is in the future")
    refuse (input.subjects = []) (httpError 400 "backup subject manifest is required")
    let subjects ← uniqueSubjects env input.subjects
    return (capturedAt, deleteAfter, subjects)
  | _, _ => .error (httpError 400 "backup capture/delete timestamps are invalid")

/-- `registerBackup` -/
def registerBackup (env : Env) (id eventId : String) (now : ℤ) (input : RegisterInput) (db : Db) :
    Except Failure (Db × BackupRecord) := do
  let checked ← checkRegistration env now input
  match db.backupRecords.find? fun b =>
      b.provider = input.provider && b.externalReference = input.externalReference with
  | some b => registerExisting b input checked.1 checked.2.1 checked.2.2 db
  | none => registerNew env id eventId now input checked.1 checked.2.1 checked.2.2 db

/-! ### Restore -/

structure RestoreInput where
  backupId : String
  manifestSha256 : String
  evidenceReference : String

structure RestoreEvaluation where
  restoreTestId : String
  backupId : String
  result : RestoreResult
  blockedSubjectCount : ℕ
deriving DecidableEq

/-- The listed subjects that have a tombstone which has not expired. -/
def Db.blockedSubjects (db : Db) (backupId : String) (now : ℤ) : List Subject :=
  ((db.subjectsOf backupId).filter fun s =>
    db.deletionTombstones.any fun t => t.subject = s && now < t.tombstoneExpiresAt).eraseDups

/-- `INSERT INTO backup_restore_tests` -/
def insertRestoreTest (t : RestoreTest) (db : Db) : Except Failure Db :=
  if t.id ∈ db.backupRestoreTests.map RestoreTest.id then .error (.constraint "backup_restore_tests")
  else .ok { db with backupRestoreTests := db.backupRestoreTests ++ [t] }

/-- `evaluateRestoreCandidate` -/
def evaluateRestoreCandidate (env : Env) (testId eventId : String) (now : ℤ) (input : RestoreInput) (db : Db) :
    Except Failure (Db × RestoreEvaluation) := do
  let evidenceReference ← boundedReference input.evidenceReference "evidenceReference" 200
  match Table.find BackupRecord.id input.backupId db.backupRecords with
  | none => .error (httpError 404 "backup record not found")
  | some b =>
    refuse (b.manifestSha256 ≠ input.manifestSha256) (httpError 409 "backup manifest checksum mismatch")
    refuse (b.status ≠ .available ∨ b.deleteAfter ≤ now) (httpError 409 "backup is not eligible for restore")
    let blocked := (db.blockedSubjects input.backupId now).length
    let result := if blocked = 0 then RestoreResult.eligible else .blocked
    let db ← insertRestoreTest
      { id := testId, backupId := input.backupId, manifestSha256 := input.manifestSha256, result,
        blockedSubjectCount := blocked, evidenceReference, testedAt := now } db
    let db ← insertEvent
      { id := eventId, eventType := if blocked = 0 then .restoreEligible else .restoreBlocked,
        subjectKind := some .backup, subjectDigest := some (backupDigest env input.backupId), actorKind := .operator,
        reasonCode := if blocked = 0 then "tombstone-check-passed" else "active-deletion-tombstone",
        evidenceReference := some evidenceReference, details := [("blockedSubjectCount", toString blocked)],
        createdAt := now } db
    return (db, { restoreTestId := testId, backupId := input.backupId, result, blockedSubjectCount := blocked })

/-! ### The statements of `deleteExpiredBackups` -/

/-- The backups that a run at `now` may claim: not yet claimed, failed, or claimed by a run that
let its lease expire. -/
def BackupRecord.claimable (now : ℤ) (b : BackupRecord) : Bool :=
  b.status = .available || b.status = .deleteFailed ||
    (b.status = .deleting && b.updatedAt ≤ now - backupDeleteLeaseMinutes * minute)

/-- `SELECT … ORDER BY delete_after, id LIMIT $2` -/
def dueBackups (env : Env) (now limit : ℤ) (db : Db) : List BackupRecord :=
  ((db.backupRecords.filter fun b => b.deleteAfter ≤ now && b.claimable now).mergeSort fun a b =>
    a.deleteAfter < b.deleteAfter || (a.deleteAfter = b.deleteAfter && env.collate a.id b.id)).take
      (max 1 (min limit 200)).toNat

/-- What a claim sets. -/
def BackupRecord.claimed (now : ℤ) (b : BackupRecord) : BackupRecord :=
  { b with status := .deleting, lastErrorCode := none, updatedAt := now }

/-- The claim of one candidate, and the row it returns. -/
def claimBackup (now : ℤ) (id : String) (db : Db) : Db × Option BackupRecord :=
  let p : BackupRecord → Bool := fun b => b.id = id && b.claimable now
  ({ db with backupRecords := Table.update p (BackupRecord.claimed now) db.backupRecords },
    (db.backupRecords.find? p).map (BackupRecord.claimed now))

/-- What a completed deletion sets. -/
def BackupRecord.completed (now : ℤ) (b : BackupRecord) : BackupRecord :=
  { b with status := .deleted, deletedAt := some now, lastErrorCode := none, updatedAt := now }

/-- `UPDATE deletion_tombstones SET backup_deleted_at = $2 WHERE p` -/
def setBackupDeleted (now : ℤ) (p : Tombstone → Bool) (db : Db) : Except Failure Db :=
  let ts := Table.update p (fun t => { t with backupDeletedAt := some now }) db.deletionTombstones
  if ts.all Tombstone.checks then .ok { db with deletionTombstones := ts }
  else .error (.constraint "deletion_tombstones")

/-- The event that a run files about a backup. -/
def runEvent (env : Env) (eventId : String) (type : EventType) (reasonCode : String) (details : List (String × String))
    (now : ℤ) (b : BackupRecord) : LifecycleEvent where
  id := eventId
  eventType := type
  subjectKind := some .backup
  subjectDigest := some (backupDigest env b.id)
  actorKind := .system
  reasonCode := reasonCode
  evidenceReference := some b.externalReference
  details := details
  createdAt := now

/-- The transaction after the adapter deleted a backup. -/
def commitDeletion (env : Env) (eventId : String) (now : ℤ) (b : BackupRecord) (db : Db) : Except Failure Db := do
  let records := Table.update (fun r => r.id = b.id && r.status = .deleting) (BackupRecord.completed now)
    db.backupRecords
  let db := { db with backupRecords := records }
  let db ← setBackupDeleted now
    (fun t => t.backupDeletedAt = none && db.lists b.id t.subject && db.allDeleted t.subject) db
  -- neither the event nor the list of deleted ids asks whether the first statement found its row
  insertEvent (runEvent env eventId .backupDeleted "retention-expiry" [] now b) db

/-- `error.name.slice(0, 120)`, where the thrown value has a name. -/
def errorCode (thrown : Option String) : String := (thrown.map fun n => (n.take 120).toString).getD "BackupDeleteError"

/-- What a failed deletion sets. -/
def BackupRecord.failed (now : ℤ) (code : String) (b : BackupRecord) : BackupRecord :=
  { b with status := .deleteFailed, lastErrorCode := some code, updatedAt := now }

/-- The first statement after a failed deletion. -/
def markDeleteFailed (now : ℤ) (id code : String) (db : Db) : Db :=
  { db with
    backupRecords := Table.update (fun r => r.id = id && r.status = .deleting) (BackupRecord.failed now code)
      db.backupRecords }

end Forge.Lifecycle
