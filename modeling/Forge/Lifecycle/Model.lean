import Forge.Queue.Gateway

/-!
# Data lifecycle: rows and tables

The rows that `dataLifecycle.ts` reads and writes, as the migrations define them,
and the database as the record of their tables. Times are microseconds since the
epoch, before or after it, and a subject is known by the digest of its kind and id.

`lifecycle_version` is the same constant in every row and is left out, and so are
the columns of the job and authentication tables that no retention rule reads.
-/

namespace Forge.Lifecycle

open Queue (GatewayError JobStatus)

/-- One day on the database clock. -/
def day : ℤ := 86400000000

/-- One minute on the database clock. -/
def minute : ℤ := 60000000

/-- `BACKUP_MAX_DAYS` -/
def backupMaxDays : ℤ := 30

/-- `TOMBSTONE_DAYS` -/
def tombstoneDays : ℤ := 45

/-- `BACKUP_DELETE_LEASE_MINUTES` -/
def backupDeleteLeaseMinutes : ℤ := 15

/-- `addDays` -/
def addDays (value : ℤ) (days : ℤ) : ℤ := value + days * day

/-! ### Subjects -/

/-- `LifecycleSubjectKind` -/
inductive LifecycleSubjectKind where
  | user | object | audit
deriving DecidableEq

def LifecycleSubjectKind.text : LifecycleSubjectKind → String
  | .user => "user"
  | .object => "object"
  | .audit => "audit"

/-- The columns `subject_kind` and `subject_digest`. -/
structure Subject where
  kind : LifecycleSubjectKind
  digest : String
deriving DecidableEq

/-- What is fixed while the gateway runs. -/
structure Env where
  /-- The SHA-256 of the UTF-8 bytes of a text, in hexadecimal. -/
  sha256 : String → String
  /-- `new Date(text)`, unless it is an invalid date. -/
  date : String → Option ℤ
  /-- `ORDER BY` on a text column. -/
  collate : String → String → Bool

/-- How a call ends when it does not return. -/
inductive Failure where
  /-- An error with its status. -/
  | http (e : GatewayError)
  /-- `legalHoldError` -/
  | legalHoldActive (activeHoldCount : ℕ)
  /-- A statement that violates a constraint of its table. -/
  | constraint (table : String)
deriving DecidableEq

/-- `Object.assign(new Error(message), { statusCode })` -/
def httpError (statusCode : ℕ) (message : String) : Failure := .http { message, statusCode }

/-- `if (c) throw e;` -/
def refuse (c : Prop) [Decidable c] (e : Failure) : Except Failure Unit := if c then .error e else .ok ()

theorem refuse_eq_ok {c : Prop} [Decidable c] {e : Failure} {u : Unit} : refuse c e = .ok u ↔ ¬c := by
  unfold refuse
  split <;> simp [*]

/-- The characters that `trim` removes in JavaScript. -/
def isTrimmed (c : Char) : Bool :=
  let n := c.toNat
  (9 ≤ n && n ≤ 13) || n = 0x20 || n = 0xA0 || n = 0x1680 || (0x2000 ≤ n && n ≤ 0x200A) || n = 0x2028 || n = 0x2029 ||
    n = 0x202F || n = 0x205F || n = 0x3000 || n = 0xFEFF

/-- The digest of a subject, computed here as in the statements. -/
def subjectDigest (env : Env) (kind : LifecycleSubjectKind) (subjectId : String) : String :=
  env.sha256 (kind.text ++ ":" ++ subjectId)

/-- `digestLifecycleSubject` -/
def digestLifecycleSubject (env : Env) (kind : LifecycleSubjectKind) (subjectId : String) : Except Failure String :=
  if subjectId.toList.all isTrimmed then .error (httpError 400 "lifecycle subject ID is required")
  else .ok (subjectDigest env kind subjectId)

/-- The digest under which the events of a backup are filed. -/
def backupDigest (env : Env) (id : String) : String := env.sha256 ("backup:" ++ id)

/-! ### Bounded references -/

/-- A letter, a digit or one of `.`, `_`, `:` and `-`. -/
def isReferenceChar (c : Char) : Bool :=
  c.isAlpha || c.isDigit || c = '.' || c = '_' || c = ':' || c = '-'

/-- The pattern of a reference, which also allows `/`, and the bounds on its length. -/
def isReference (value : String) (min max : ℕ) : Bool :=
  (value.toList.all fun c => isReferenceChar c || c = '/') && min ≤ value.length && value.length ≤ max

/-- `boundedReference` with its default minimum. -/
def boundedReference (value field : String) (max : ℕ) : Except Failure String :=
  if isReference value 3 max then .ok value
  else .error (httpError 400 s!"{field} must be a bounded opaque reference")

/-! ### Rows -/

/-- A row of `sessions`. -/
structure Session where
  id : String
  expires : ℤ
deriving DecidableEq

/-- A row of `verification_token`. -/
structure VerificationToken where
  identifier : String
  token : String
  expires : ℤ
deriving DecidableEq

/-- A row of `generation_refusals`. -/
structure GenerationRefusal where
  id : String
  ownerUserId : Option String
  createdAt : ℤ
deriving DecidableEq

/-- A row of `jobs`. -/
structure JobRow where
  id : String
  ownerUserId : Option String
  status : JobStatus
  createdAt : ℤ
  finishedAt : Option ℤ
deriving DecidableEq

inductive HoldAction where
  | place | release
deriving DecidableEq

/-- A row of `legal_hold_events`. -/
structure HoldEvent where
  id : String
  holdKey : String
  action : HoldAction
  subject : Subject
  expiresAt : ℤ
  previousEventId : Option String
  eventSequence : ℕ
  createdAt : ℤ
deriving DecidableEq

inductive BackupStatus where
  | available | deleting | deleted | deleteFailed
deriving DecidableEq

/-- A row of `backup_records`. -/
structure BackupRecord where
  id : String
  provider : String
  externalReference : String
  manifestSha256 : String
  capturedAt : ℤ
  deleteAfter : ℤ
  status : BackupStatus
  deletedAt : Option ℤ
  lastErrorCode : Option String
  createdAt : ℤ
  updatedAt : ℤ
deriving DecidableEq

/-- A row of `backup_subjects`. -/
structure BackupSubject where
  backupId : String
  subject : Subject
deriving DecidableEq

/-- A row of `deletion_tombstones`. -/
structure Tombstone where
  id : String
  deletionId : String
  subject : Subject
  primaryDeletedAt : ℤ
  backupDeleteAfter : ℤ
  tombstoneExpiresAt : ℤ
  backupDeletedAt : Option ℤ
deriving DecidableEq

inductive RestoreResult where
  | eligible | blocked
deriving DecidableEq

/-- A row of `backup_restore_tests`. -/
structure RestoreTest where
  id : String
  backupId : String
  manifestSha256 : String
  result : RestoreResult
  blockedSubjectCount : ℕ
  evidenceReference : String
  testedAt : ℤ
deriving DecidableEq

inductive EventType where
  | legalHoldBlocked | deletionPrimaryComplete | backupRegistered | backupDeleted | backupDeleteFailed
  | restoreEligible | restoreBlocked | retentionSweep
deriving DecidableEq

inductive EventSubjectKind where
  | user | object | audit | backup
deriving DecidableEq

inductive ActorKind where
  | owner | operator | system
deriving DecidableEq

/-- A row of `data_lifecycle_events`. -/
structure LifecycleEvent where
  id : String
  eventType : EventType
  subjectKind : Option EventSubjectKind
  subjectDigest : Option String
  actorKind : ActorKind
  reasonCode : String
  evidenceReference : Option String
  /-- The members of the JSON object `details`, each value as it is printed. -/
  details : List (String × String)
  createdAt : ℤ
deriving DecidableEq

/-! ### Tables -/

/-- The tables of the retention rules that are written outside `dataLifecycle.ts`, and the holds. -/
structure Ambient where
  sessions : List Session
  verificationTokens : List VerificationToken
  generationRefusals : List GenerationRefusal
  jobs : List JobRow
  legalHoldEvents : List HoldEvent

structure Db extends Ambient where
  backupRecords : List BackupRecord
  backupSubjects : List BackupSubject
  deletionTombstones : List Tombstone
  backupRestoreTests : List RestoreTest
  dataLifecycleEvents : List LifecycleEvent

def Ambient.empty : Ambient := ⟨[], [], [], [], []⟩

def Db.empty : Db := { Ambient.empty with
  backupRecords := [], backupSubjects := [], deletionTombstones := [], backupRestoreTests := [],
  dataLifecycleEvents := [] }

/-- A backup lists a subject. -/
def Db.lists (db : Db) (backupId : String) (s : Subject) : Bool := ⟨backupId, s⟩ ∈ db.backupSubjects

/-- `NOT EXISTS (… AND b.status <> 'deleted')`: every backup that lists the subject is deleted. -/
def Db.allDeleted (db : Db) (s : Subject) : Bool :=
  db.backupSubjects.all fun r => r.subject ≠ s ||
    db.backupRecords.all fun b => b.id ≠ r.backupId || b.status = .deleted

/-- The primary key of `backup_records`. -/
def Db.Keyed (db : Db) : Prop := (db.backupRecords.map BackupRecord.id).Nodup

instance (db : Db) : Decidable db.Keyed := inferInstanceAs (Decidable (List.Nodup _))

theorem Db.allDeleted_iff {db : Db} {s : Subject} : db.allDeleted s = true ↔
    ∀ r ∈ db.backupSubjects, r.subject = s → ∀ b ∈ db.backupRecords, b.id = r.backupId → b.status = .deleted := by
  simp only [Db.allDeleted, List.all_eq_true, Bool.or_eq_true, decide_eq_true_eq]
  refine forall₂_congr fun r _ => ⟨fun h hs b hb hid => ?_, fun h => ?_⟩
  · exact ((h.resolve_left (not_not_intro hs)) b hb).resolve_left (not_not_intro hid)
  · by_cases hs : r.subject = s
    · exact .inr fun b hb => (Decidable.em (b.id = r.backupId)).elim (fun hid => .inr (h hs b hb hid)) .inl
    · exact .inl hs

theorem Db.lists_iff {db : Db} {id : String} {s : Subject} : db.lists id s = true ↔ ⟨id, s⟩ ∈ db.backupSubjects := by
  simp [Db.lists]

/-- `INSERT INTO data_lifecycle_events` -/
def insertEvent (e : LifecycleEvent) (db : Db) : Except Failure Db :=
  if e.id ∈ db.dataLifecycleEvents.map LifecycleEvent.id ∨ e.evidenceReference.any (fun r => !isReference r 3 200) then
    .error (.constraint "data_lifecycle_events")
  else .ok { db with dataLifecycleEvents := db.dataLifecycleEvents ++ [e] }

/-! ### Legal holds -/

/-- Two events of one hold on one subject. -/
def HoldEvent.sameChain (e f : HoldEvent) : Bool := e.subject = f.subject && e.holdKey = f.holdKey

/-- `DISTINCT ON (subject_kind, subject_digest, hold_key) … ORDER BY event_sequence DESC` -/
def latestHolds (holds : List HoldEvent) : List HoldEvent :=
  holds.filter fun e => holds.all fun f => !(e.sameChain f && e.eventSequence < f.eventSequence)

/-- `action = 'place' AND expires_at > now` -/
def HoldEvent.active (now : ℤ) (e : HoldEvent) : Bool := e.action = .place && now < e.expiresAt

/-- `activeLegalHolds`, for a digest. -/
def activeLegalHolds (holds : List HoldEvent) (s : Subject) (now : ℤ) : List HoldEvent :=
  (latestHolds (holds.filter fun e => e.subject = s)).filter (HoldEvent.active now)

/-- Some hold on the subject is active. -/
def held (holds : List HoldEvent) (s : Subject) (now : ℤ) : Bool := (activeLegalHolds holds s now).length ≠ 0

end Forge.Lifecycle
