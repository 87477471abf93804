import Forge.Data.Run
import Forge.Lifecycle.Sweep

/-!
# The lifecycle system

Registrations, account deletions, restore evaluations, sweeps and any number of
runs of `deleteExpiredBackups` over one database, in any order. Each transaction
is one step; a run takes a step for each of its statements, so that other
transactions come between its claim, the call of the adapter and the commit.

The clock never goes back: a transaction brings its own time, which is not before
the clock, and a run keeps the time at which it was started.

A world also keeps two histories that no transaction reads: the subjects deleted
so far with the time of their deletion, and which run changed which backup to
deleted.
-/

namespace Forge.Lifecycle

/-- Where a run stands with its current candidate. -/
inductive Stage where
  /-- Between two candidates. -/
  | next
  /-- The adapter is deleting the claimed backup. -/
  | calling (b : BackupRecord)
  /-- The adapter returned. -/
  | committing (b : BackupRecord)
  /-- The adapter or the commit threw. -/
  | failing (b : BackupRecord) (thrown : Option String)
  /-- The failure is recorded on the backup. -/
  | reporting (b : BackupRecord) (code : String)
deriving DecidableEq

/-- A call of `deleteExpiredBackups`. -/
structure DeletionRun where
  now : ℤ
  /-- `due.rows`, without those already handled. -/
  due : List BackupRecord
  stage : Stage
  deleted : List String
  failed : List String
deriving DecidableEq

structure World where
  /-- The time of the latest transaction. -/
  clock : ℤ
  db : Db
  runs : List DeletionRun
  /-- The subjects of the committed account deletions, each with its time. -/
  deletions : List (Subject × ℤ)
  /-- Which run changed which backup to deleted. -/
  finalized : List (ℕ × String)

/-- One transaction, or one statement of a run. -/
inductive Op where
  /-- Another part of the gateway writes its own tables. -/
  | ambient (a : Ambient)
  | registerBackup (id eventId : String) (now : ℤ) (input : RegisterInput)
  | deleteAccount (ids : ℕ → String) (eventId : String) (input : DeletionInput)
  | evaluateRestoreCandidate (testId eventId : String) (now : ℤ) (input : RestoreInput)
  | sweep (eventId : String) (now : ℤ) (execute : Bool) (evidenceReference : Option String)
  | startRun (now limit : ℤ)
  | claim (run : ℕ)
  /-- The adapter returns, or it throws a value that may have a name. -/
  | adapter (run : ℕ) (outcome : Except (Option String) Unit)
  /-- The transaction after the adapter; `fault` is the error of a database that gives up. -/
  | commit (run : ℕ) (eventId : String) (fault : Option String)
  | markFailed (run : ℕ)
  | reportFailed (run : ℕ) (eventId : String)

/-- The tables after a transaction, which are those before it if the transaction fails. -/
def committed {α : Type} (db : Db) : Except Failure (Db × α) → Db
  | .ok r => r.1
  | .error _ => db

/-- The subjects that a deletion makes tombstones for. -/
def DeletionInput.subjects (env : Env) (input : DeletionInput) : List Subject :=
  ⟨.user, subjectDigest env .user input.userId⟩ ::
    input.objectKeys.map fun o => ⟨.object, subjectDigest env .object o.subjectId⟩

/-- The claim of a run's next candidate. -/
def stepClaim (db : Db) (r : DeletionRun) : Db × DeletionRun :=
  match r.stage, r.due with
  | .next, candidate :: due =>
    match claimBackup r.now candidate.id db with
    | (db, some b) => (db, { r with due, stage := .calling b })
    | (db, none) => (db, { r with due })
  | _, _ => (db, r)

def stepAdapter (outcome : Except (Option String) Unit) (r : DeletionRun) : DeletionRun :=
  match r.stage with
  | .calling b =>
    match outcome with
    | .ok () => { r with stage := .committing b }
    | .error thrown => { r with stage := .failing b thrown }
  | _ => r

/-- The commit of a run. An error of the database is thrown under the name `error`. -/
def stepCommit (env : Env) (eventId : String) (fault : Option String) (db : Db) (r : DeletionRun) : Db × DeletionRun :=
  match r.stage with
  | .committing b =>
    match fault with
    | some name => (db, { r with stage := .failing b (some name) })
    | none =>
      match commitDeletion env eventId r.now b db with
      | .ok db => (db, { r with stage := .next, deleted := r.deleted ++ [b.id] })
      | .error _ => (db, { r with stage := .failing b (some "error") })
  | _ => (db, r)

def stepMarkFailed (db : Db) (r : DeletionRun) : Db × DeletionRun :=
  match r.stage with
  | .failing b thrown =>
    (markDeleteFailed r.now b.id (errorCode thrown) db, { r with stage := .reporting b (errorCode thrown) })
  | _ => (db, r)

/-- A run whose last statement fails returns nothing and takes no further step. -/
def stepReportFailed (env : Env) (eventId : String) (db : Db) (r : DeletionRun) : Db × DeletionRun :=
  match r.stage with
  | .reporting b code =>
    match insertEvent (runEvent env eventId .backupDeleteFailed "adapter-failure" [("errorCode", code)] r.now b) db with
    | .ok db => (db, { r with stage := .next, failed := r.failed ++ [b.id] })
    | .error _ => (db, r)
  | _ => (db, r)

/-- The backups whose status is deleted after a step and was not before it. -/
def newlyDeleted (db db' : Db) : List String :=
  (db.backupRecords.filter fun b => b.status ≠ .deleted &&
    db'.backupRecords.any fun b' => b'.id = b.id && b'.status = .deleted).map BackupRecord.id

/-- A statement of run `i`. -/
def World.stepRun (w : World) (i : ℕ) (f : Db → DeletionRun → Db × DeletionRun) : World :=
  match w.runs[i]? with
  | none => w
  | some r =>
    { w with
      db := (f w.db r).1
      runs := w.runs.set i (f w.db r).2
      finalized := (newlyDeleted w.db (f w.db r).1).map (fun id => (i, id)) ++ w.finalized }

/-- What one step does to the world. -/
def exec (env : Env) (w : World) : Op → World
  | .ambient a => { w with db := { w.db with toAmbient := a } }
  | .registerBackup id eventId now input =>
    { w with clock := now, db := committed w.db (registerBackup env id eventId now input w.db) }
  | .deleteAccount ids eventId input =>
    match prepareAccountDeletionLifecycle env ids eventId input w.db with
    | .error _ => { w with clock := input.now }
    | .ok r => { w with clock := input.now, db := r.1,
                        deletions := (input.subjects env).map (fun s => (s, input.now)) ++ w.deletions }
  | .evaluateRestoreCandidate testId eventId now input =>
    { w with clock := now, db := committed w.db (evaluateRestoreCandidate env testId eventId now input w.db) }
  | .sweep eventId now execute evidence =>
    { w with clock := now, db := committed w.db (runPrimaryRetentionSweep env eventId now execute evidence w.db) }
  | .startRun now limit =>
    let run : DeletionRun := { now, due := dueBackups env now limit w.db, stage := .next, deleted := [], failed := [] }
    { w with clock := now, runs := w.runs ++ [run] }
  | .claim i => w.stepRun i stepClaim
  | .adapter i outcome => w.stepRun i fun db r => (db, stepAdapter outcome r)
  | .commit i eventId fault => w.stepRun i (stepCommit env eventId fault)
  | .markFailed i => w.stepRun i stepMarkFailed
  | .reportFailed i eventId => w.stepRun i (stepReportFailed env eventId)

/-- The time that an operation brings. -/
def Op.now? : Op → Option ℤ
  | .registerBackup _ _ now _ | .evaluateRestoreCandidate _ _ now _ | .sweep _ now _ _ | .startRun now _ => some now
  | .deleteAccount _ _ input => some input.now
  | .ambient _ | .claim _ | .adapter _ _ | .commit _ _ _ | .markFailed _ | .reportFailed _ _ => none

/-- The clock does not go back. -/
def onTime (w : World) (op : Op) : Prop := ∀ now ∈ op.now?, w.clock ≤ now

instance (w : World) (op : Op) : Decidable (onTime w op) :=
  inferInstanceAs (Decidable (∀ now ∈ op.now?, w.clock ≤ now))

/-- The world in which nothing has happened yet. -/
def World.empty : World where
  clock := 0
  db := .empty
  runs := []
  deletions := []
  finalized := []

/-- The lifecycle system from an empty database. -/
def system (env : Env) : System World Op where
  init := .empty
  step w op w' := onTime w op ∧ exec env w op = w'

/-- The world after a list of steps. -/
def run (env : Env) (w : World) (ops : List Op) : World := ops.foldl (exec env) w

/-- Every step of the list is on time and satisfies `ok` when its turn comes. -/
def onTimeRun (env : Env) (ok : World → Op → Prop) [∀ w op, Decidable (ok w op)] : World → List Op → Bool
  | _, [] => true
  | w, op :: ops => decide (onTime w op ∧ ok w op) && onTimeRun env ok (exec env w op) ops

theorem steps_run {env : Env} {ok : World → Op → Prop} [∀ w op, Decidable (ok w op)] {w : World} {ops : List Op}
    (h : onTimeRun env ok w ops = true) : (system env).Steps ok w (run env w ops) := by
  induction ops generalizing w with
  | nil => exact .refl
  | cons op ops ih =>
    rw [onTimeRun, Bool.and_eq_true, decide_eq_true_eq] at h
    have hstep : (system env).step w op (exec env w op) := ⟨h.1.1, rfl⟩
    exact (System.Steps.refl.tail h.1.2 hstep).trans (ih h.2)

end Forge.Lifecycle
