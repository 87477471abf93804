import Forge.Data.Run
import Forge.Queue.Gateway
import Forge.Queue.Worker

/-!
# The job system

The state of the whole system: the tables, the database clock, and a record of
what has been handed out and accepted so far. Its steps (`Op`) are the atomic
transactions of any number of workers and gateway instances, in any order, with
the clock moving forward between them; a call that throws or is turned away is a
step that changes nothing. A worker may act on a claim at any later time, however
stale: the record of issued claims never shrinks.

`admissible` states what the environment guarantees: lease tokens are fresh, and
only claims that were handed out are acted on.
-/

namespace Forge.Queue

/-- The system: tables, clock and what happened so far, newest first. -/
structure World where
  db : Db
  now : ℕ
  /-- Every claim handed to a worker. -/
  issued : List ClaimedJob
  /-- Claims whose authority was read for a result not yet committed. -/
  authorized : List ClaimedJob
  /-- Claims whose finalisation was accepted. -/
  accepted : List ClaimedJob
  /-- Fixture jobs whose creating call has yet to materialise the output. -/
  pendingFixtures : List String
  /-- Jobs whose output was materialised, once per time. -/
  materialized : List String

def World.empty : World where
  db := .empty
  now := 0
  issued := []
  authorized := []
  accepted := []
  pendingFixtures := []
  materialized := []

/-- The transactions of the system. -/
inductive Op where
  /-- The database clock moves forward. -/
  | tick (elapsed : ℕ)
  | createJob (readings : Readings) (user id : String) (input : CreateJobInput)
  | materializeFixture (id : String) (persisted : Option Json)
  | claimOne (tasks : List JobKind) (pick : Option String) (token attemptId : String)
  | readAuthority (h : ClaimedJob)
  | commitSucceeded (h : ClaimedJob) (persisted : Json) (final : Option Json)
  | markFailed (h : ClaimedJob) (error code : String)
  | markRetryable (h : ClaimedJob) (callId : Option String) (error code : String) (retryAfter : Option ℕ)
  | recordProviderCall (h : ClaimedJob) (callId : String) (evidence : CallEvidence)
  | recordProviderCancelled (jobId callId : String)
  | cancelOwnedJob (user jobId : String)
  | recordConsent (readings : Readings) (user : String) (input : ConsentInput)

/-- What one transaction does to the system. -/
def exec (env : GatewayEnv) (w : World) : Op → World
  | .tick elapsed => { w with now := w.now + elapsed }
  | .createJob readings user id input =>
    match createJob env readings w.now user id input w.db with
    | .error _ => w
    | .ok (db, job, fixtureInserted) =>
      { w with db, pendingFixtures := if fixtureInserted then job.id :: w.pendingFixtures else w.pendingFixtures }
  | .materializeFixture id persisted =>
    if id ∈ w.pendingFixtures then
      { w with db := materializeFixture id persisted w.db, pendingFixtures := w.pendingFixtures.erase id,
               materialized := id :: w.materialized }
    else w
  | .claimOne tasks pick token attemptId =>
    let (db, claim) := claimOne w.now tasks pick token attemptId w.db
    { w with db, issued := claim.toList ++ w.issued }
  | .readAuthority h =>
    if (currentJobAuthority w.now h w.db).isSome then { w with authorized := h :: w.authorized } else w
  | .commitSucceeded h persisted final =>
    if h ∈ w.authorized then
      match commitSucceeded w.now h persisted final w.db with
      | (db, true) => { w with db, authorized := w.authorized.erase h, accepted := h :: w.accepted,
                               materialized := h.id :: w.materialized }
      | (_, false) => { w with authorized := w.authorized.erase h }
    else w
  | .markFailed h error code =>
    match markFailed w.now h error code w.db with
    | (db, true) => { w with db, accepted := h :: w.accepted }
    | (_, false) => w
  | .markRetryable h callId error code retryAfter =>
    match markRetryable w.now h callId error code retryAfter w.db with
    | (db, some _) => { w with db, accepted := h :: w.accepted }
    | (_, none) => w
  | .recordProviderCall h callId evidence => { w with db := (recordProviderCall w.now h callId evidence w.db).1 }
  | .recordProviderCancelled jobId callId => { w with db := recordProviderCancelled w.now jobId callId w.db }
  | .cancelOwnedJob user jobId =>
    match cancelOwnedJob w.now user jobId w.db with
    | .error _ => w
    | .ok (db, _) => { w with db }
  | .recordConsent readings user input =>
    match recordConsent env readings w.now user input w.db with
    | .error _ => w
    | .ok (db, _) => { w with db }

/-- What the environment guarantees: a claim draws a fresh token, and only claims that were
issued are acted on. -/
def admissible (w : World) : Op → Prop
  | .claimOne _ _ token _ => token ≠ "" ∧ ∀ h ∈ w.issued, h.leaseToken ≠ token
  | .readAuthority h | .commitSucceeded h _ _ | .markFailed h _ _ | .markRetryable h _ _ _ _
  | .recordProviderCall h _ _ => h ∈ w.issued
  | _ => True

instance (w : World) : (op : Op) → Decidable (admissible w op)
  | .claimOne _ _ token _ => inferInstanceAs (Decidable (token ≠ "" ∧ ∀ h ∈ w.issued, h.leaseToken ≠ token))
  | .readAuthority h | .commitSucceeded h _ _ | .markFailed h _ _ | .markRetryable h _ _ _ _
  | .recordProviderCall h _ _ => inferInstanceAs (Decidable (h ∈ w.issued))
  | .tick _ | .createJob _ _ _ _ | .materializeFixture _ _ | .recordProviderCancelled _ _ | .cancelOwnedJob _ _
  | .recordConsent _ _ _ => isTrue trivial

/-- The job system from an empty database. -/
def system (env : GatewayEnv) : System World Op where
  init := .empty
  step w op w' := admissible w op ∧ exec env w op = w'

/-- The system after a list of transactions. -/
def run (env : GatewayEnv) (w : World) (ops : List Op) : World := ops.foldl (exec env) w

/-- Every transaction of the list is admissible and satisfies `ok` when its turn comes. -/
def admissibleRun (env : GatewayEnv) (ok : World → Op → Prop) [∀ w op, Decidable (ok w op)] : World → List Op → Bool
  | _, [] => true
  | w, op :: ops => decide (admissible w op ∧ ok w op) && admissibleRun env ok (exec env w op) ops

theorem steps_run {env : GatewayEnv} {ok : World → Op → Prop} [∀ w op, Decidable (ok w op)] {w : World} {ops : List Op}
    (h : admissibleRun env ok w ops = true) : (system env).Steps ok w (run env w ops) := by
  induction ops generalizing w with
  | nil => exact .refl
  | cons op ops ih =>
    rw [admissibleRun, Bool.and_eq_true, decide_eq_true_eq] at h
    have hstep : (system env).step w op (exec env w op) := ⟨h.1.1, rfl⟩
    exact (System.Steps.refl.tail h.1.2 hstep).trans (ih h.2)

/-- The job's latest claim. -/
def latestClaim (issued : List ClaimedJob) (id : String) : Option ClaimedJob := issued.find? fun h => h.id = id

theorem latestClaim_cons (h : ClaimedJob) (issued : List ClaimedJob) (id : String) :
    latestClaim (h :: issued) id = if h.id = id then some h else latestClaim issued id := by
  rw [latestClaim, List.find?_cons]
  by_cases hid : h.id = id <;> simp [hid, latestClaim]

theorem latestClaim_some {issued : List ClaimedJob} {id : String} {h : ClaimedJob}
    (hl : latestClaim issued id = some h) : h ∈ issued ∧ h.id = id :=
  ⟨List.mem_of_find?_eq_some hl, by simpa using List.find?_some hl⟩

end Forge.Queue
