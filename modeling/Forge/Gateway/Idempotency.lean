import Forge.Lifecycle.Holds
import Forge.Lifecycle.Sweep
import Forge.Queue.Consent

/-!
# Idempotency keys of holds and consents

A call that finds its idempotency key stored returns the stored event. For a legal hold the replay compares only a
part of the request; for a consent the event may have been superseded since, and is still returned as active.

**`idempotency_iff`** gives for both the condition under which the answers of a whole history can be trusted.
-/

namespace Forge.Gateway

open Queue (GatewayEnv Readings ConsentInput ConsentEvent latestConsent replayedConsent consentRefusal recordConsent)

/-! ### Histories of consents -/

/-- One call of `recordConsent`. -/
structure ConsentCall where
  readings : Readings
  now : ℕ
  user : String
  input : ConsentInput

/-- The tables after a call; one that fails leaves them as they were. -/
def consentStep (env : GatewayEnv) (db : Queue.Db) (call : ConsentCall) : Queue.Db :=
  match recordConsent env call.readings call.now call.user call.input db with
  | .ok (db, _) => db
  | .error _ => db

/-- The latest event for the owner, the purpose and the subject of a call is an active grant. -/
def LatestActive (env : GatewayEnv) (db : Queue.Db) (call : ConsentCall) : Prop :=
  ∃ e, latestConsent db call.user call.input.purpose call.input.subjectKind call.input.subjectId = some e ∧
    e.active env = true

/-- The event that the call returns is active only if the latest one is. -/
def ReportsLatest (env : GatewayEnv) (db : Queue.Db) (call : ConsentCall) : Prop :=
  ∀ db' e, recordConsent env call.readings call.now call.user call.input db = .ok (db', e) → e.active env = true →
    LatestActive env db' call

/-- The stored event is that of a request like this one. -/
def answersConsent (e : ConsentEvent) (input : ConsentInput) : Prop :=
  e.purpose = input.purpose ∧ e.subjectKind = input.subjectKind ∧ e.subjectId = input.subjectId ∧
    e.action = input.action

/-- The call replays the key of a grant of the current policy that is no longer in force. -/
structure ReplaysSuperseded (env : GatewayEnv) (db : Queue.Db) (call : ConsentCall) : Prop where
  admitted : consentRefusal env call.readings call.input = none
  grant : ∃ e, replayedConsent db call.user call.input.idempotencyKey = some e ∧ answersConsent e call.input ∧
    e.active env = true
  superseded : ¬ LatestActive env db call

/-- What a call appends is the latest event about its subject. -/
theorem latestConsent_recorded {db db' : Queue.Db} {call : ConsentCall}
    (h : db'.consentEvents = db.consentEvents ++ [call.input.event call.user]) :
    latestConsent db' call.user call.input.purpose call.input.subjectKind call.input.subjectId =
      some (call.input.event call.user) := by
  rw [Queue.latestConsent_append h]
  exact if_pos ⟨rfl, rfl, rfl, rfl⟩

/-- A call reports what is in force unless it replays a superseded grant. -/
theorem reportsLatest_iff (env : GatewayEnv) (db : Queue.Db) (call : ConsentCall) :
    ReportsLatest env db call ↔ ¬ ReplaysSuperseded env db call := by
  cases hrefusal : consentRefusal env call.readings call.input with
  | some f =>
    refine iff_of_true (fun db' e h _ => ?_) fun h => ?_
    · simp only [recordConsent, hrefusal] at h
      cases h
    · cases hrefusal.symm.trans h.admitted
  | none =>
    cases hreplayed : replayedConsent db call.user call.input.idempotencyKey with
    | none =>
      refine iff_of_true (fun db' e h hactive => ?_) fun h => ?_
      · simp only [recordConsent, hrefusal, hreplayed] at h
        split at h <;> obtain ⟨rfl, rfl⟩ := Prod.mk.inj (Except.ok.inj h) <;>
          exact ⟨_, latestConsent_recorded rfl, hactive⟩
      · obtain ⟨e, he, -⟩ := h.grant
        cases hreplayed.symm.trans he
    | some stored =>
      have hrecord : recordConsent env call.readings call.now call.user call.input db =
          if stored.purpose ≠ call.input.purpose ∨ stored.subjectKind ≠ call.input.subjectKind ∨
              stored.subjectId ≠ call.input.subjectId ∨ stored.action ≠ call.input.action then
            .error { message := "consent idempotency key was already used for a different event", statusCode := 409 }
          else .ok (db, stored) := by
        simp only [recordConsent, hrefusal, hreplayed]
      have hanswers : answersConsent stored call.input ↔
          ¬ (stored.purpose ≠ call.input.purpose ∨ stored.subjectKind ≠ call.input.subjectKind ∨
              stored.subjectId ≠ call.input.subjectId ∨ stored.action ≠ call.input.action) := by
        simp only [answersConsent, not_or, not_not]
      constructor
      · intro hreports hreplays
        obtain ⟨e, he, hsame, hactive⟩ := hreplays.grant
        obtain rfl := Option.some.inj (hreplayed.symm.trans he)
        exact hreplays.superseded (hreports db stored (hrecord.trans (if_neg (hanswers.mp hsame))) hactive)
      · intro hreplays db' e h hactive
        rw [hrecord, ite_error_eq_ok] at h
        obtain ⟨rfl, rfl⟩ := Prod.mk.inj (Except.ok.inj h.2)
        by_contra hlatest
        exact hreplays ⟨hrefusal, ⟨stored, hreplayed, hanswers.mpr h.1, hactive⟩, hlatest⟩

/-- **Idempotency keys.** The successful hold calls of a history that share a key have asked for the same exactly when
every call that is answered from the table repeats the event it finds; and every consent call of a history reports a
grant as active only while it is, exactly when none of them replays a superseded grant. -/
theorem idempotency_iff (env : Lifecycle.Env) (holds : List Lifecycle.HoldCall)
    (hdigest : Lifecycle.DistinctDigests env (holds.map Lifecycle.HoldCall.input)) (gateway : GatewayEnv)
    (db : Queue.Db) (consents : List ConsentCall) :
    (Lifecycle.KeysBind env [] holds ↔ EachStep (Lifecycle.holdStep env) (Lifecycle.RepeatsStored env) [] holds) ∧
      (EachStep (consentStep gateway) (ReportsLatest gateway) db consents ↔
        EachStep (consentStep gateway) (fun db call => ¬ ReplaysSuperseded gateway db call) db consents) :=
  ⟨Lifecycle.keysBind_iff hdigest, eachStep_congr (reportsLatest_iff gateway)⟩

/-! ### An extension and a withdrawal that go unnoticed -/

/-- A hold on an account, placed in December 2025. -/
def sampleHold (expiresAt evidenceReference : String) : Lifecycle.LegalHoldInput where
  action := .place
  holdKey := "case-17"
  subjectKind := .user
  subjectId := "user-1"
  reasonCode := .litigation
  authorityReference := "court-order-9"
  jurisdiction := "DE"
  evidenceReference := evidenceReference
  expiresAt := some expiresAt
  idempotencyKey := "hold-1"
  now := 1766000000000000

/-- The hold is placed until the start of January, and then, under the same key, until its end. -/
def extendedHold : List Lifecycle.HoldCall :=
  [⟨⟨"hld-1", 1⟩, sampleHold "2026-01-01T00:00:00.000Z" "evidence-1"⟩,
   ⟨⟨"hld-2", 2⟩, sampleHold "2026-01-31T00:00:00.000Z" "evidence-2"⟩]

/-- A deployment, with the digest of the notice about photos. -/
def photoGateway : GatewayEnv where
  scopedJobIdempotencyKey user key := user ++ "/" ++ key
  noticeHash
    | .photoscanProcessing => "e3380504267d58b5cf064820a05c1cfa100fbf97027d8d3f5b60ca39577a4178"
    | purpose => purpose.text
  modalMaxActiveJobs := 1
  modalDailyCreditLimit := 10
  fixtureJobOutput _ _ := .object []

/-- A consent about a photo, under a key. -/
def consentAbout (subjectId : String) (action : Queue.ConsentAction) (key : String) : ConsentCall where
  readings := { refusal := none, ownership := fun _ _ => none, authoritativePayload := .object [] }
  now := 0
  user := "user-1"
  input := { purpose := .photoscanProcessing, subjectKind := .objectBlob, subjectId,
             policyVersion := "1.0.0", noticeHash := photoGateway.noticeHash .photoscanProcessing, action,
             idempotencyKey := some key }

def photoCall (action : Queue.ConsentAction) (key : String) : ConsentCall := consentAbout "blob-1" action key

/-- A grant, its withdrawal, and the grant sent again. -/
def resentGrant : List ConsentCall :=
  [photoCall .grant "photo-grant-1", photoCall .withdraw "photo-withdraw-1", photoCall .grant "photo-grant-1"]

/-- The second request succeeds although it asks for another expiry and names other evidence; and the grant sent again
is reported as active after its withdrawal. -/
theorem keys_do_not_bind :
    ¬ Lifecycle.KeysBind Lifecycle.sampleEnv [] extendedHold ∧
      ¬ EachStep (consentStep photoGateway) (ReportsLatest photoGateway) .empty resentGrant := by
  constructor
  · decide +kernel
  · intro h
    obtain ⟨e, he, hactive⟩ := h.2.2.1 _ _ rfl (by decide)
    have hwithdrawn : e = (photoCall .withdraw "photo-withdraw-1").input.event "user-1" :=
      Option.some.inj (he.symm.trans (by decide +kernel))
    rw [hwithdrawn] at hactive
    exact absurd hactive (by decide)

/-- A hold that is sent again as it was, and one on another account under a key of its own. -/
def keptHolds : List Lifecycle.HoldCall :=
  [⟨⟨"hld-1", 1⟩, sampleHold "2026-01-01T00:00:00.000Z" "evidence-1"⟩,
   ⟨⟨"hld-2", 2⟩, sampleHold "2026-01-01T00:00:00.000Z" "evidence-1"⟩,
   ⟨⟨"hld-3", 3⟩, { sampleHold "2026-01-31T00:00:00.000Z" "evidence-2" with
      holdKey := "case-18", subjectId := "user-2", idempotencyKey := "hold-2" }⟩]

/-- A grant that is sent again while it is in force, and one about another photo that is withdrawn. -/
def keptGrants : List ConsentCall :=
  [consentAbout "blob-1" .grant "photo-grant-1", consentAbout "blob-2" .grant "photo-grant-2",
   consentAbout "blob-2" .withdraw "photo-withdraw-2", consentAbout "blob-1" .grant "photo-grant-1"]

theorem not_replaysSuperseded_of_fresh {env : GatewayEnv} {db : Queue.Db} {call : ConsentCall}
    (h : replayedConsent db call.user call.input.idempotencyKey = none) : ¬ ReplaysSuperseded env db call := by
  intro hreplays
  obtain ⟨e, he, -⟩ := hreplays.grant
  rw [h] at he
  cases he

/-- Both hold keys bind what is asked for, and the grant sent again is still the latest one about its photo. -/
theorem idempotency_iff_kept :
    (Lifecycle.KeysBind Lifecycle.sampleEnv [] keptHolds ∧
      EachStep (Lifecycle.holdStep Lifecycle.sampleEnv) (Lifecycle.RepeatsStored Lifecycle.sampleEnv) [] keptHolds) ∧
      EachStep (consentStep photoGateway) (ReportsLatest photoGateway) .empty keptGrants := by
  obtain ⟨hholds, hconsents⟩ :=
    idempotency_iff Lifecycle.sampleEnv keptHolds (by decide +kernel) photoGateway .empty keptGrants
  have hbind : Lifecycle.KeysBind Lifecycle.sampleEnv [] keptHolds := by decide +kernel
  refine ⟨⟨hbind, hholds.mp hbind⟩, hconsents.mpr ⟨?_, ?_, ?_, ?_, trivial⟩⟩
  · exact not_replaysSuperseded_of_fresh rfl
  · exact not_replaysSuperseded_of_fresh (by decide +kernel)
  · exact not_replaysSuperseded_of_fresh (by decide +kernel)
  · exact fun hreplays => hreplays.superseded ⟨(consentAbout "blob-1" .grant "photo-grant-1").input.event "user-1",
      by decide +kernel, by decide⟩

end Forge.Gateway
