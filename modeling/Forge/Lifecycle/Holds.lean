import Forge.Data.Except
import Forge.Data.Run
import Forge.Data.Table
import Forge.Lifecycle.Model

/-!
# Legal holds

`recordLegalHold` places or releases a hold on a subject, once for each idempotency key: a call that finds its key
stored returns the stored event, if the action, the hold key and the subject are those of the request.

**`keysBind_iff`** says when the successful calls of a history that share a key have asked for the same: exactly when
every call that is answered from the table also repeats the reason, the authority, the jurisdiction, the evidence and
the expiry of the event it finds.
-/

namespace Forge.Lifecycle

inductive LegalHoldReason where
  | litigation | regulatory | securityIncident | billingDispute
deriving DecidableEq

/-- `LEGAL_HOLD_MAX_DAYS` -/
def legalHoldMaxDays : ℤ := 365

/-- What a call returns of a row of `legal_hold_events`. -/
structure LegalHoldEvent extends HoldEvent where
  reasonCode : LegalHoldReason
  authorityReference : String
  jurisdiction : String
  evidenceReference : String
deriving DecidableEq

/-- A row of `legal_hold_events`. -/
structure HoldRow extends LegalHoldEvent where
  idempotencyKey : String
deriving DecidableEq

/-- `mapHold` -/
def mapHold (row : HoldRow) : LegalHoldEvent := row.toLegalHoldEvent

/-- What a call of `recordLegalHold` is given, with the time at which it runs. -/
structure LegalHoldInput where
  action : HoldAction
  holdKey : String
  subjectKind : LifecycleSubjectKind
  subjectId : String
  reasonCode : LegalHoldReason
  authorityReference : String
  jurisdiction : String
  evidenceReference : String
  expiresAt : Option String
  idempotencyKey : String
  now : ℤ
deriving DecidableEq

/-- The columns that the table gives a new row by itself. -/
structure Generated where
  id : String
  eventSequence : ℕ
deriving DecidableEq

/-! ### The transaction -/

/-- `boundedReference` for the jurisdiction, which may be shorter. -/
def boundedJurisdiction (value : String) : Except Failure String :=
  if isReference value 2 35 then .ok value
  else .error (httpError 400 "jurisdiction must be a bounded opaque reference")

/-- A pattern of the table: a reference without `/`. -/
def isKey (value : String) (min max : ℕ) : Bool :=
  value.toList.all isReferenceChar && min ≤ value.length && value.length ≤ max

/-- The `CHECK` constraints of `legal_hold_events`. -/
def HoldRow.checks (row : HoldRow) : Bool :=
  isKey row.holdKey 3 120 && isReference row.authorityReference 3 160 && isKey row.jurisdiction 2 35 &&
    isReference row.evidenceReference 3 200 && isKey row.idempotencyKey 3 160

/-- `INSERT INTO legal_hold_events` -/
def insertHold (rows : List HoldRow) (row : HoldRow) : Except Failure (List HoldRow) :=
  if row.id ∈ rows.map (fun r => r.id) ∨ row.eventSequence ∈ rows.map (fun r => r.eventSequence) ∨
      row.idempotencyKey ∈ rows.map (fun r => r.idempotencyKey) ∨ row.checks = false then
    .error (.constraint "legal_hold_events")
  else .ok (rows ++ [row])

/-- `WHERE idempotency_key = $1 LIMIT 1` -/
def storedHold (rows : List HoldRow) (idempotencyKey : String) : Option HoldRow :=
  rows.find? fun row => row.idempotencyKey = idempotencyKey

/-- `ORDER BY event_sequence DESC LIMIT 1`, over the events of one hold on one subject. -/
def previousHold (rows : List HoldRow) (holdKey : String) (s : Subject) : Option HoldRow :=
  let chain := rows.filter fun row => row.holdKey = holdKey && row.subject = s
  chain.find? fun row => chain.all fun r => r.eventSequence ≤ row.eventSequence

/-- What a replay compares. -/
def HoldRow.answers (row : HoldRow) (input : LegalHoldInput) (s : Subject) : Bool :=
  row.action = input.action && row.holdKey = input.holdKey && row.subject = s

/-- The date that a placed hold is asked to expire at. -/
def LegalHoldInput.requestedDate (env : Env) (input : LegalHoldInput) : Option ℤ :=
  env.date (input.expiresAt.getD "")

/-- The expiry of the event of a call: a release takes that of the hold. -/
def expiryOf (env : Env) (input : LegalHoldInput) (previous : Option HoldRow) : Option ℤ :=
  match input.action with
  | .release => previous.map fun row => row.expiresAt
  | .place => input.requestedDate env

/-- The row that a call appends. -/
def LegalHoldInput.row (input : LegalHoldInput) (generated : Generated) (s : Subject) (expiresAt : ℤ)
    (previous : Option HoldRow) : HoldRow where
  id := generated.id
  holdKey := input.holdKey
  action := input.action
  subject := s
  expiresAt := expiresAt
  previousEventId := previous.map fun row => row.id
  eventSequence := generated.eventSequence
  createdAt := input.now
  reasonCode := input.reasonCode
  authorityReference := input.authorityReference
  jurisdiction := input.jurisdiction
  evidenceReference := input.evidenceReference
  idempotencyKey := input.idempotencyKey

/-- The part of the transaction after a key that is not stored. -/
def appendHold (env : Env) (generated : Generated) (input : LegalHoldInput) (s : Subject) (rows : List HoldRow) :
    Except Failure (List HoldRow × LegalHoldEvent) :=
  let previous := previousHold rows input.holdKey s
  if input.action = .release ∧ (previous.all fun row => row.action ≠ .place) = true then
    .error (httpError 409 "legal hold is not active")
  else match expiryOf env input previous with
    | none => .error (httpError 400 "legal hold expiry must be in the future")
    | some expiresAt =>
      if expiresAt ≤ input.now then .error (httpError 400 "legal hold expiry must be in the future")
      else if addDays input.now legalHoldMaxDays < expiresAt then
        .error (httpError 400 s!"legal hold requires review within {legalHoldMaxDays} days")
      else do
        let row := input.row generated s expiresAt previous
        let rows ← insertHold rows row
        return (rows, mapHold row)

/-- The checks of the request, which give the subject. -/
def LegalHoldInput.checked (env : Env) (input : LegalHoldInput) : Except Failure Subject := do
  let _ ← boundedReference input.holdKey "holdKey" 120
  let _ ← boundedReference input.authorityReference "authorityReference" 160
  let _ ← boundedReference input.evidenceReference "evidenceReference" 200
  let _ ← boundedJurisdiction input.jurisdiction
  let _ ← boundedReference input.idempotencyKey "idempotencyKey" 160
  let digest ← digestLifecycleSubject env input.subjectKind input.subjectId
  return ⟨input.subjectKind, digest⟩

/-- `recordLegalHold` -/
def recordLegalHold (env : Env) (generated : Generated) (input : LegalHoldInput) (rows : List HoldRow) :
    Except Failure (List HoldRow × LegalHoldEvent) := do
  let s ← input.checked env
  match storedHold rows input.idempotencyKey with
  | some row =>
    if row.answers input s = false then .error (httpError 409 "legal-hold idempotency key was reused")
    else .ok (rows, mapHold row)
  | none => appendHold env generated input s rows

/-! ### Histories -/

/-- One call, with what the table would give a new row. -/
structure HoldCall where
  generated : Generated
  input : LegalHoldInput
deriving DecidableEq

/-- The table after a call; one that fails leaves it as it was. -/
def holdStep (env : Env) (rows : List HoldRow) (call : HoldCall) : List HoldRow :=
  match recordLegalHold env call.generated call.input rows with
  | .ok (rows, _) => rows
  | .error _ => rows

/-- The requests of the calls that succeed, in order. -/
def succeeded (env : Env) : List HoldRow → List HoldCall → List LegalHoldInput
  | _, [] => []
  | rows, call :: calls =>
    match recordLegalHold env call.generated call.input rows with
    | .ok (rows, _) => call.input :: succeeded env rows calls
    | .error _ => succeeded env rows calls

/-- What a request asks for. A release asks for no expiry: it takes that of the hold it releases. -/
structure HoldTerms where
  action : HoldAction
  holdKey : String
  subjectKind : LifecycleSubjectKind
  subjectId : String
  reasonCode : LegalHoldReason
  authorityReference : String
  jurisdiction : String
  evidenceReference : String
  requestedExpiry : Option ℤ
deriving DecidableEq

def LegalHoldInput.terms (env : Env) (input : LegalHoldInput) : HoldTerms where
  action := input.action
  holdKey := input.holdKey
  subjectKind := input.subjectKind
  subjectId := input.subjectId
  reasonCode := input.reasonCode
  authorityReference := input.authorityReference
  jurisdiction := input.jurisdiction
  evidenceReference := input.evidenceReference
  requestedExpiry := match input.action with
    | .place => input.requestedDate env
    | .release => none

/-- Two requests that ask for the same if they have the same idempotency key. -/
def Binds (env : Env) (a b : LegalHoldInput) : Prop := a.idempotencyKey = b.idempotencyKey → a.terms env = b.terms env

instance (env : Env) : DecidableRel (Binds env) := fun _ _ => inferInstanceAs (Decidable (_ → _))

/-- The keys of a history bind what is asked for. -/
def KeysBind (env : Env) (rows : List HoldRow) (calls : List HoldCall) : Prop :=
  (succeeded env rows calls).Pairwise (Binds env)

instance (env : Env) (rows : List HoldRow) (calls : List HoldCall) : Decidable (KeysBind env rows calls) :=
  inferInstanceAs (Decidable (List.Pairwise _ _))

/-- The rest of the request is that of the event: what a replay does not compare. -/
structure HoldRow.Repeats (env : Env) (row : HoldRow) (input : LegalHoldInput) : Prop where
  reasonCode : row.reasonCode = input.reasonCode
  authorityReference : row.authorityReference = input.authorityReference
  jurisdiction : row.jurisdiction = input.jurisdiction
  evidenceReference : row.evidenceReference = input.evidenceReference
  expiresAt : input.action = .place → input.requestedDate env = some row.expiresAt

/-- A call that is answered from the table repeats the rest of the request. -/
def RepeatsStored (env : Env) (rows : List HoldRow) (call : HoldCall) : Prop :=
  ∀ s row, call.input.checked env = .ok s → storedHold rows call.input.idempotencyKey = some row →
    row.answers call.input s = true → row.Repeats env call.input

/-! ### One call -/

section

variable {env : Env} {rows rows' : List HoldRow} {input a b : LegalHoldInput} {row : HoldRow} {s : Subject}
  {e : LegalHoldEvent} {generated : Generated}

theorem subject_of_checked (h : input.checked env = .ok s) :
    s = ⟨input.subjectKind, subjectDigest env input.subjectKind input.subjectId⟩ := by
  obtain ⟨_, -, h⟩ := bind_eq_ok.mp h
  obtain ⟨_, -, h⟩ := bind_eq_ok.mp h
  obtain ⟨_, -, h⟩ := bind_eq_ok.mp h
  obtain ⟨_, -, h⟩ := bind_eq_ok.mp h
  obtain ⟨_, -, h⟩ := bind_eq_ok.mp h
  obtain ⟨digest, hdigest, h⟩ := bind_eq_ok.mp h
  rw [digestLifecycleSubject, ite_error_eq_ok] at hdigest
  rw [← pure_eq_ok.mp h, ← Except.ok.inj hdigest.2]

/-- The row is that of a call with this request. -/
structure HoldRow.IsOf (env : Env) (row : HoldRow) (input : LegalHoldInput) : Prop where
  key : row.idempotencyKey = input.idempotencyKey
  action : row.action = input.action
  holdKey : row.holdKey = input.holdKey
  subject : row.subject = ⟨input.subjectKind, subjectDigest env input.subjectKind input.subjectId⟩
  rest : row.Repeats env input

/-- What a call appends. -/
theorem appendHold_eq_ok (h : appendHold env generated input s rows = .ok (rows', e)) :
    ∃ expiresAt previous, rows' = rows ++ [input.row generated s expiresAt previous] ∧
      input.idempotencyKey ∉ rows.map (fun r => r.idempotencyKey) ∧
      (input.action = .place → input.requestedDate env = some expiresAt) := by
  unfold appendHold at h
  rw [ite_error_eq_ok] at h
  obtain ⟨-, h⟩ := h
  split at h
  · cases h
  · rename_i expiresAt hexpiry
    rw [ite_error_eq_ok, ite_error_eq_ok] at h
    obtain ⟨rows'', hinsert, h⟩ := bind_eq_ok.mp h.2.2
    obtain ⟨rfl, -⟩ := Prod.mk.inj (pure_eq_ok.mp h)
    rw [insertHold, ite_error_eq_ok, not_or, not_or, not_or] at hinsert
    refine ⟨expiresAt, previousHold rows input.holdKey s, (Except.ok.inj hinsert.2).symm, hinsert.1.2.2.1, ?_⟩
    intro hplace
    rw [expiryOf, hplace] at hexpiry
    exact hexpiry

/-- A call succeeds by a stored event that it asked for, or appends one. -/
theorem recordLegalHold_eq_ok (h : recordLegalHold env generated input rows = .ok (rows', e)) :
    ∃ s, input.checked env = .ok s ∧
      ((∃ row, storedHold rows input.idempotencyKey = some row ∧ row.answers input s = true ∧ rows' = rows) ∨
        appendHold env generated input s rows = .ok (rows', e)) := by
  obtain ⟨s, hs, h⟩ := bind_eq_ok.mp h
  refine ⟨s, hs, ?_⟩
  split at h
  · rename_i row hrow
    rw [ite_error_eq_ok, Bool.not_eq_false] at h
    exact Or.inl ⟨row, hrow, h.1, (Prod.mk.inj (Except.ok.inj h.2)).1.symm⟩
  · exact Or.inr h

/-- A request that the stored event answers gets it. -/
theorem recordLegalHold_replay (hs : input.checked env = .ok s)
    (hrow : storedHold rows input.idempotencyKey = some row) (h : row.answers input s = true) :
    recordLegalHold env generated input rows = .ok (rows, mapHold row) := by
  refine bind_eq_ok.mpr ⟨s, hs, ?_⟩
  rw [hrow]
  exact ite_error_eq_ok.mpr ⟨by simp [h], rfl⟩

theorem isOf_appended {expiresAt : ℤ} {previous : Option HoldRow} (hs : input.checked env = .ok s)
    (hexpiry : input.action = .place → input.requestedDate env = some expiresAt) :
    (input.row generated s expiresAt previous).IsOf env input :=
  ⟨rfl, rfl, rfl, subject_of_checked hs, rfl, rfl, rfl, rfl, hexpiry⟩

theorem isOf_of_answers (hs : input.checked env = .ok s)
    (hrow : storedHold rows input.idempotencyKey = some row) (h : row.answers input s = true)
    (hrest : row.Repeats env input) : row.IsOf env input := by
  rw [HoldRow.answers, Bool.and_eq_true, Bool.and_eq_true, decide_eq_true_eq, decide_eq_true_eq,
    decide_eq_true_eq] at h
  have hkey := List.find?_some hrow
  rw [decide_eq_true_eq] at hkey
  exact ⟨hkey, h.1.1, h.1.2, h.2.trans (subject_of_checked hs), hrest⟩

/-- Two requests with one row ask for the same, if different subjects have different digests. -/
theorem terms_eq_of_isOf (ha : row.IsOf env a) (hb : row.IsOf env b)
    (hdigest : subjectDigest env a.subjectKind a.subjectId = subjectDigest env b.subjectKind b.subjectId →
      a.subjectKind = b.subjectKind → a.subjectId = b.subjectId) : a.terms env = b.terms env := by
  have haction : a.action = b.action := ha.action.symm.trans hb.action
  obtain ⟨hkind, hid⟩ := Subject.mk.inj (ha.subject.symm.trans hb.subject)
  have hexpiry : (a.terms env).requestedExpiry = (b.terms env).requestedExpiry := by
    simp only [LegalHoldInput.terms]
    cases hact : b.action with
    | place => rw [haction, hact]; exact (ha.rest.expiresAt (haction.trans hact)).trans (hb.rest.expiresAt hact).symm
    | release => rw [haction, hact]
  rw [LegalHoldInput.terms, LegalHoldInput.terms, HoldTerms.mk.injEq]
  exact ⟨haction, ha.holdKey.symm.trans hb.holdKey, hkind, hdigest hid hkind,
    ha.rest.reasonCode.symm.trans hb.rest.reasonCode,
    ha.rest.authorityReference.symm.trans hb.rest.authorityReference,
    ha.rest.jurisdiction.symm.trans hb.rest.jurisdiction,
    ha.rest.evidenceReference.symm.trans hb.rest.evidenceReference, hexpiry⟩

/-- A request that asks for the same as the request of a row repeats the row. -/
theorem repeats_of_terms_eq (ha : row.IsOf env a) (h : a.terms env = b.terms env) : row.Repeats env b := by
  rw [LegalHoldInput.terms, LegalHoldInput.terms, HoldTerms.mk.injEq] at h
  obtain ⟨haction, -, -, -, hreason, hauthority, hjurisdiction, hevidence, hexpiry⟩ := h
  refine ⟨ha.rest.reasonCode.trans hreason, ha.rest.authorityReference.trans hauthority,
    ha.rest.jurisdiction.trans hjurisdiction, ha.rest.evidenceReference.trans hevidence, ?_⟩
  intro hplace
  rw [haction, hplace] at hexpiry
  exact hexpiry.symm.trans (ha.rest.expiresAt (haction.trans hplace))

/-! ### Histories of calls -/

/-- The table holds the events of the calls so far that succeeded. -/
structure Ledger (env : Env) (past : List LegalHoldInput) (rows : List HoldRow) : Prop where
  keys : (rows.map fun r => r.idempotencyKey).Nodup
  call : ∀ row ∈ rows, ∃ a ∈ past, row.IsOf env a
  event : ∀ a ∈ past, ∃ row ∈ rows, row.IsOf env a

theorem Ledger.stored {past : List LegalHoldInput} (h : Ledger env past rows) (hrow : row ∈ rows) :
    storedHold rows row.idempotencyKey = some row := by
  have hfind : storedHold rows row.idempotencyKey = Table.find (fun r : HoldRow => r.idempotencyKey) row.idempotencyKey
      rows := rfl
  rw [hfind, Table.find_eq_some_iff h.keys]
  exact ⟨hrow, rfl⟩

/-- A call that appends. -/
theorem Ledger.append {past : List LegalHoldInput} (h : Ledger env past rows) (hkey : row.idempotencyKey ∉
    rows.map fun r => r.idempotencyKey) (hrow : row.IsOf env a) : Ledger env (past ++ [a]) (rows ++ [row]) where
  keys := by
    rw [List.map_append, List.map_singleton, List.nodup_append]
    refine ⟨h.keys, List.pairwise_singleton _ _, ?_⟩
    intro k hk k' hk' heq
    exact hkey (List.mem_singleton.mp hk' ▸ heq ▸ hk)
  call r hr := by
    rcases List.mem_append.mp hr with hr | hr
    · obtain ⟨a', ha', his⟩ := h.call r hr
      exact ⟨a', List.mem_append_left _ ha', his⟩
    · exact ⟨a, by simp, List.mem_singleton.mp hr ▸ hrow⟩
  event a' ha' := by
    rcases List.mem_append.mp ha' with ha' | ha'
    · obtain ⟨r, hr, his⟩ := h.event a' ha'
      exact ⟨r, List.mem_append_left _ hr, his⟩
    · exact ⟨row, by simp, List.mem_singleton.mp ha' ▸ hrow⟩

/-- A call that is answered by an event of its own request. -/
theorem Ledger.replay {past : List LegalHoldInput} (h : Ledger env past rows) (hrow : row ∈ rows)
    (his : row.IsOf env a) : Ledger env (past ++ [a]) rows where
  keys := h.keys
  call r hr := by
    obtain ⟨a', ha', his'⟩ := h.call r hr
    exact ⟨a', List.mem_append_left _ ha', his'⟩
  event a' ha' := by
    rcases List.mem_append.mp ha' with ha' | ha'
    · exact h.event a' ha'
    · exact ⟨row, hrow, List.mem_singleton.mp ha' ▸ his⟩

/-- Different subjects of the requests have different digests. -/
def DistinctDigests (env : Env) (inputs : List LegalHoldInput) : Prop :=
  ∀ a ∈ inputs, ∀ b ∈ inputs,
    subjectDigest env a.subjectKind a.subjectId = subjectDigest env b.subjectKind b.subjectId →
    a.subjectKind = b.subjectKind → a.subjectId = b.subjectId

instance (env : Env) (inputs : List LegalHoldInput) : Decidable (DistinctDigests env inputs) :=
  inferInstanceAs (Decidable (∀ a ∈ inputs, ∀ b ∈ inputs, _ → _ → _))

/-- A call that is answered by a stored event binds the earlier requests exactly when it repeats the event. -/
theorem Ledger.binds_iff {past : List LegalHoldInput} (h : Ledger env past rows)
    (hdigest : DistinctDigests env (past ++ [input])) (hs : input.checked env = .ok s)
    (hrow : storedHold rows input.idempotencyKey = some row) (hanswers : row.answers input s = true) :
    (∀ a ∈ past, Binds env a input) ↔ row.Repeats env input := by
  constructor
  · intro hbinds
    obtain ⟨a, ha, his⟩ := h.call row (List.mem_of_find?_eq_some hrow)
    have hkey := List.find?_some hrow
    rw [decide_eq_true_eq] at hkey
    exact repeats_of_terms_eq his (hbinds a ha (his.key.symm.trans hkey))
  · intro hrepeats a ha hkey
    obtain ⟨r, hr, his⟩ := h.event a ha
    have hstored := h.stored hr
    rw [his.key, hkey, hrow] at hstored
    obtain rfl := Option.some.inj hstored
    exact terms_eq_of_isOf his (isOf_of_answers hs hrow hanswers hrepeats)
      (hdigest a (List.mem_append_left _ ha) input (by simp))

/-- The keys of the calls to come bind what they and the earlier ones ask for, exactly when every call that is
answered from the table repeats what it finds. -/
theorem Ledger.keysBind_iff {past : List LegalHoldInput} {calls : List HoldCall} (h : Ledger env past rows)
    (hdigest : DistinctDigests env (past ++ calls.map HoldCall.input)) :
    (KeysBind env rows calls ∧ ∀ a ∈ past, ∀ b ∈ succeeded env rows calls, Binds env a b) ↔
      EachStep (holdStep env) (RepeatsStored env) rows calls := by
  induction calls generalizing past rows with
  | nil =>
    refine iff_of_true ⟨List.Pairwise.nil, fun a _ b hb => ?_⟩ trivial
    exact absurd hb List.not_mem_nil
  | cons call calls ih =>
    have hrest : DistinctDigests env ((past ++ [call.input]) ++ calls.map HoldCall.input) := by
      rwa [List.append_assoc]
    have hfirst : DistinctDigests env (past ++ [call.input]) := fun a ha b hb =>
      hrest a (List.mem_append_left _ ha) b (List.mem_append_left _ hb)
    have hpast : DistinctDigests env (past ++ calls.map HoldCall.input) := fun a ha b hb =>
      hrest a (by simp at ha ⊢; tauto) b (by simp at hb ⊢; tauto)
    cases hcall : recordLegalHold env call.generated call.input rows with
    | error f =>
      -- a call that fails is not answered from the table
      have hvacuous : RepeatsStored env rows call := by
        intro s row hs hrow hanswers
        rw [recordLegalHold_replay hs hrow hanswers] at hcall
        cases hcall
      have hsucceeded : succeeded env rows (call :: calls) = succeeded env rows calls := by
        rw [succeeded, hcall]
      have hstep : holdStep env rows call = rows := by rw [holdStep, hcall]
      rw [EachStep, hstep, KeysBind, hsucceeded, and_iff_right hvacuous]
      exact ih h hpast
    | ok result =>
      obtain ⟨rows', e⟩ := result
      have hsucceeded : succeeded env rows (call :: calls) = call.input :: succeeded env rows' calls := by
        rw [succeeded, hcall]
      have hstep : holdStep env rows call = rows' := by rw [holdStep, hcall]
      have hsplit : (KeysBind env rows (call :: calls) ∧
            ∀ a ∈ past, ∀ b ∈ succeeded env rows (call :: calls), Binds env a b) ↔
          (∀ a ∈ past, Binds env a call.input) ∧ KeysBind env rows' calls ∧
            ∀ a ∈ past ++ [call.input], ∀ b ∈ succeeded env rows' calls, Binds env a b := by
        rw [KeysBind, KeysBind, hsucceeded, List.pairwise_cons]
        simp only [List.mem_cons, List.mem_append, List.not_mem_nil, or_false, or_imp, forall_and, forall_eq]
        tauto
      rw [hsplit, EachStep, hstep]
      obtain ⟨s, hs, ⟨row, hrow, hanswers, hrows⟩ | happend⟩ := recordLegalHold_eq_ok hcall
      · obtain rfl : rows = rows' := hrows.symm
        have hbinds := h.binds_iff hfirst hs hrow hanswers
        have hrepeats : RepeatsStored env rows call ↔ row.Repeats env call.input := by
          constructor
          · exact fun h => h s row hs hrow hanswers
          · intro h s' row' _ hrow' _
            rw [hrow] at hrow'
            exact Option.some.inj hrow' ▸ h
        rw [hbinds, hrepeats]
        refine and_congr_right fun h' => ?_
        have hmem := List.mem_of_find?_eq_some hrow
        exact ih (h.replay hmem (isOf_of_answers hs hrow hanswers h')) hrest
      · obtain ⟨expiresAt, previous, rfl, hkey, hexpiry⟩ := appendHold_eq_ok happend
        have hnone : storedHold rows call.input.idempotencyKey = none := by
          rw [storedHold, List.find?_eq_none]
          intro r hr heq
          exact hkey (List.mem_map.mpr ⟨r, hr, of_decide_eq_true heq⟩)
        have hvacuous : RepeatsStored env rows call := fun s' row' _ hrow' _ => by
          rw [hnone] at hrow'
          cases hrow'
        have hbinds : ∀ a ∈ past, Binds env a call.input := by
          intro a ha hsame
          obtain ⟨r, hr, his⟩ := h.event a ha
          exact absurd (List.mem_map.mpr ⟨r, hr, his.key.trans hsame⟩) hkey
        rw [and_iff_right hbinds, and_iff_right hvacuous]
        exact ih (h.append hkey (isOf_appended hs hexpiry)) hrest

/-- **Idempotency keys of holds**: the calls of a history with one key have asked for the same exactly when every
call that is answered from the table repeats the event it finds. -/
theorem keysBind_iff {calls : List HoldCall} (hdigest : DistinctDigests env (calls.map HoldCall.input)) :
    KeysBind env [] calls ↔ EachStep (holdStep env) (RepeatsStored env) [] calls := by
  have hempty : Ledger env [] [] := ⟨List.nodup_nil, fun _ h => absurd h List.not_mem_nil, fun _ h =>
    absurd h List.not_mem_nil⟩
  rw [← hempty.keysBind_iff hdigest]
  simp

end

end Forge.Lifecycle
