import Forge.Queue.Moves

/-!
# Credit conservation

A Modal job costs one credit. `createJob` debits it with the row it inserts, and
`cancelOwnedJob` returns it when the job has no output yet; each posts one ledger
entry under a key that is used once. So balances always match the ledger, and the
ledger holds for each job exactly what its row says (`CreditInv`, which every
transaction keeps).

`applyWithdrawal` cancels jobs too, and returns nothing. The books are therefore
complete as long as no withdrawal hits a Modal job, and the first one that does
leaves a cancelled job without its refund (**`creditConservation`**).
-/

namespace Forge.Queue

/-! ### The books -/

/-- The credits of a user; who has no account has none. -/
def Db.balance (db : Db) (user : String) : ℤ :=
  ((Table.find CreditAccount.userId user db.creditAccounts).map CreditAccount.balanceCredits).getD 0

/-- The sum of a user's ledger deltas. -/
def Db.ledgerTotal (db : Db) (user : String) : ℤ :=
  ((db.creditLedger.filter fun e => e.userId = user).map LedgerEntry.deltaCredits).sum

/-- What was charged for a job. -/
def Db.debitsOf (db : Db) (id : String) : List LedgerEntry :=
  db.creditLedger.filter fun e => e.sourceId = id && e.deltaCredits < 0

/-- What was returned for a job. -/
def Db.refundsOf (db : Db) (id : String) : List LedgerEntry :=
  db.creditLedger.filter fun e => e.sourceId = id && 0 < e.deltaCredits

/-- The books are in order: balances follow the ledger, every Modal job was charged its cost once
and refunded at most once, refunds go to cancelled jobs without output, and all of those have one. -/
structure CreditsConserved (opening : String → ℤ) (db : Db) : Prop where
  balance : ∀ user, db.balance user = opening user + db.ledgerTotal user
  debit : ∀ j ∈ db.jobs, j.provider = .modal →
    ∃ e, db.debitsOf j.id = [e] ∧ e.userId = j.ownerUserId ∧ e.deltaCredits = -(j.costCredits : ℤ)
  refund : ∀ j ∈ db.jobs, j.provider = .modal →
    ∀ e ∈ db.refundsOf j.id, db.refundsOf j.id = [e] ∧ e.userId = j.ownerUserId ∧ e.deltaCredits = j.costCredits
  refundOnly : ∀ e ∈ db.creditLedger, 0 < e.deltaCredits →
    ∃ j ∈ db.jobs, j.id = e.sourceId ∧ j.status = .cancelled ∧ j.output = none
  refunded : ∀ j ∈ db.jobs, j.provider = .modal → j.status = .cancelled → j.output = none → db.refundsOf j.id ≠ []

/-- No withdrawal that takes effect hits a Modal job. -/
def SparesModal (env : GatewayEnv) (w : World) : Op → Prop
  | .recordConsent readings user input =>
    withdraws env readings user input w.db = true →
      ∀ j ∈ w.db.jobs, withdrawalHits user input.purpose input.subjectId j = true → j.provider ≠ .modal
  | _ => True

instance (env : GatewayEnv) (w : World) : (op : Op) → Decidable (SparesModal env w op)
  | .recordConsent readings user input =>
    inferInstanceAs (Decidable (withdraws env readings user input w.db = true →
      ∀ j ∈ w.db.jobs, withdrawalHits user input.purpose input.subjectId j = true → j.provider ≠ .modal))
  | .tick _ | .createJob _ _ _ _ | .materializeFixture _ _ | .claimOne _ _ _ _ | .readAuthority _
  | .commitSucceeded _ _ _ | .markFailed _ _ _ | .markRetryable _ _ _ _ _ | .recordProviderCall _ _ _
  | .recordProviderCancelled _ _ | .cancelOwnedJob _ _ => isTrue trivial

/-- The system before any job, with accounts opened earlier. -/
def World.opened (accounts : List CreditAccount) : World :=
  { World.empty with db := { Db.empty with creditAccounts := accounts } }

/-! ### Balances -/

section
variable {db : Db} {user : String}

/-- The user has an account. -/
def Db.hasAccount (db : Db) (user : String) : Prop := ∃ a ∈ db.creditAccounts, a.userId = user

theorem ensureCreditAccount_ledger : (ensureCreditAccount user db).creditLedger = db.creditLedger := by
  unfold ensureCreditAccount
  split_ifs <;> rfl

theorem ensureCreditAccount_balance (u : String) : (ensureCreditAccount user db).balance u = db.balance u := by
  unfold ensureCreditAccount
  split_ifs with h
  · rfl
  · simp only [Db.balance, Table.find, List.find?_append]
    cases hf : db.creditAccounts.find? fun a => a.userId = u with
    | some a => rfl
    | none => by_cases hu : user = u <;> simp [hu]

theorem ensureCreditAccount_hasAccount_self : (ensureCreditAccount user db).hasAccount user := by
  unfold ensureCreditAccount Db.hasAccount
  split_ifs with h
  · simpa using List.any_eq_true.mp h
  · exact ⟨_, List.mem_append_right _ (List.mem_singleton_self _), rfl⟩

theorem ensureCreditAccount_hasAccount {u : String} (h : db.hasAccount u) :
    (ensureCreditAccount user db).hasAccount u := by
  obtain ⟨a, ha, hu⟩ := h
  unfold ensureCreditAccount Db.hasAccount
  split_ifs
  · exact ⟨a, ha, hu⟩
  · exact ⟨a, List.mem_append_left _ ha, hu⟩

variable {e : LedgerEntry}

/-- No entry has the key. -/
def Db.unusedKey (db : Db) (key : String) : Prop := ∀ e ∈ db.creditLedger, e.idempotencyKey ≠ key

theorem postCredit_eq (h : db.unusedKey e.idempotencyKey) : postCredit e db =
    { db with
      creditLedger := db.creditLedger ++ [e]
      creditAccounts := Table.update (fun a => a.userId = e.userId)
        (fun a => { a with balanceCredits := a.balanceCredits + e.deltaCredits }) db.creditAccounts } := by
  unfold postCredit
  rw [if_neg]
  simpa [Db.unusedKey] using h

/-- A new entry moves the balance of its user by its delta. -/
theorem postCredit_balance (h : db.unusedKey e.idempotencyKey) (hacc : db.hasAccount e.userId) (u : String) :
    (postCredit e db).balance u = db.balance u + if e.userId = u then e.deltaCredits else 0 := by
  have hkeep : ∀ a : CreditAccount, (decide (a.userId = e.userId)) = true →
      ({ a with balanceCredits := a.balanceCredits + e.deltaCredits } : CreditAccount).userId = a.userId := fun _ _ => rfl
  rw [postCredit_eq h]
  simp only [Db.balance]
  rw [Table.find_update hkeep]
  cases hf : Table.find CreditAccount.userId u db.creditAccounts with
  | none =>
    have hne : e.userId ≠ u := by
      rintro rfl
      obtain ⟨a, ha, hu⟩ := hacc
      exact Table.find_eq_none_iff.mp hf (List.mem_map.mpr ⟨a, ha, hu⟩)
    simp [hne]
  | some a =>
    obtain rfl := (Table.find_some hf).2
    by_cases hu : a.userId = e.userId
    · simp [hu]
    · simp [hu, Ne.symm hu]

theorem postCredit_ledgerTotal (h : db.unusedKey e.idempotencyKey) (u : String) :
    (postCredit e db).ledgerTotal u = db.ledgerTotal u + if e.userId = u then e.deltaCredits else 0 := by
  rw [postCredit_eq h, Db.ledgerTotal, List.filter_append, List.map_append, List.sum_append, ← Db.ledgerTotal]
  by_cases hu : e.userId = u <;> simp [hu]

end

/-! ### The entries of a job -/

/-- The entry that charges a job. -/
def Job.debit (j : Job) : LedgerEntry :=
  { userId := j.ownerUserId, deltaCredits := -(j.costCredits : ℤ), reason := s!"modal {j.kind.text}",
    sourceKind := "job", sourceId := j.id, idempotencyKey := s!"{j.id}:debit" }

/-- The entry that returns what a job cost. -/
def Job.refund (j : Job) : LedgerEntry :=
  { userId := j.ownerUserId, deltaCredits := j.costCredits, reason := "provider-cancelled-before-materialization",
    sourceKind := "job", sourceId := j.id, idempotencyKey := s!"{j.id}:refund" }

/-- What the ledger has to hold for a job, in order. -/
def Job.entries (j : Job) : List LedgerEntry :=
  if j.provider = .modal then
    if j.creditRefundedAt.isSome then [j.debit, j.refund] else [j.debit]
  else []

theorem mem_entries {j : Job} {e : LedgerEntry} (h : e ∈ j.entries) : e = j.debit ∨ e = j.refund := by
  unfold Job.entries at h
  split_ifs at h <;> simp at h <;> tauto

theorem debit_key_inj {a b : String} (h : s!"{a}:debit" = s!"{b}:debit") : a = b := by
  change a ++ ":debit" = b ++ ":debit" at h
  simpa using h

theorem refund_key_inj {a b : String} (h : s!"{a}:refund" = s!"{b}:refund") : a = b := by
  change a ++ ":refund" = b ++ ":refund" at h
  simpa using h

/-- A debit key is no refund key: they end differently. -/
theorem debit_key_ne_refund_key (a b : String) : s!"{a}:debit" ≠ s!"{b}:refund" := by
  intro h
  change a ++ ":debit" = b ++ ":refund" at h
  have hlast := congrArg (fun s => s.toList.getLast?) h
  have ht : ":debit".toList.getLast? = some 't' := by decide
  have hd : ":refund".toList.getLast? = some 'd' := by decide
  simp only [String.toList_append, List.getLast?_append, ht, hd, Option.some_or] at hlast
  exact absurd hlast (by decide)

theorem entries_congr {j j' : Job} (h : SameRequest j j') (hr : j'.creditRefundedAt = j.creditRefundedAt) :
    j'.entries = j.entries := by
  unfold Job.entries Job.debit Job.refund
  rw [h.id, h.ownerUserId, h.kind, h.provider, h.costCredits, hr]

/-! ### The invariant -/

/-- What a row says about its credit. -/
structure CreditRow (j : Job) : Prop where
  cost : j.provider = .modal → j.costCredits = 1
  /-- A live job has neither an output nor a refund. -/
  live : j.live → j.output = none ∧ j.creditRefundedAt = none
  refunded : j.creditRefundedAt.isSome = true → j.status = .cancelled ∧ j.output = none

/-- The ledger holds for each job what its row says and nothing else, and balances follow it. -/
structure CreditInv (opening : String → ℤ) (db : Db) : Prop where
  rows : ∀ j ∈ db.jobs, CreditRow j
  entries : ∀ j ∈ db.jobs, (db.creditLedger.filter fun e => e.sourceId = j.id) = j.entries
  known : ∀ e ∈ db.creditLedger, ∃ j ∈ db.jobs, e.sourceId = j.id
  accounts : ∀ j ∈ db.jobs, db.hasAccount j.ownerUserId
  balance : ∀ user, db.balance user = opening user + db.ledgerTotal user

/-- Every Modal job that was cancelled without output got its credit back. -/
def Refunded (db : Db) : Prop :=
  ∀ j ∈ db.jobs, j.provider = .modal → j.status = .cancelled → j.output = none → j.creditRefundedAt.isSome = true

section
variable {opening : String → ℤ} {db db' : Db}

/-- The entries about a job are those its row asks for. -/
theorem CreditInv.entry_of_job (h : CreditInv opening db) {e : LedgerEntry} (he : e ∈ db.creditLedger) :
    ∃ j ∈ db.jobs, e ∈ j.entries := by
  obtain ⟨j, hj, hid⟩ := h.known e he
  refine ⟨j, hj, ?_⟩
  rw [← h.entries j hj]
  exact List.mem_filter.mpr ⟨he, by simpa using hid⟩

theorem CreditInv.debitsOf_eq (h : CreditInv opening db) {j : Job} (hj : j ∈ db.jobs) :
    db.debitsOf j.id = j.entries.filter fun e => e.deltaCredits < 0 := by
  rw [← h.entries j hj, List.filter_filter]
  exact List.filter_congr fun e _ => Bool.and_comm _ _

theorem CreditInv.refundsOf_eq (h : CreditInv opening db) {j : Job} (hj : j ∈ db.jobs) :
    db.refundsOf j.id = j.entries.filter fun e => 0 < e.deltaCredits := by
  rw [← h.entries j hj, List.filter_filter]
  exact List.filter_congr fun e _ => Bool.and_comm _ _

/-- What was charged and returned for a Modal job. -/
theorem CreditInv.modal (h : CreditInv opening db) {j : Job} (hj : j ∈ db.jobs) (hm : j.provider = .modal) :
    db.debitsOf j.id = [j.debit] ∧
      db.refundsOf j.id = if j.creditRefundedAt.isSome then [j.refund] else [] := by
  have hcost := (h.rows j hj).cost hm
  rw [h.debitsOf_eq hj, h.refundsOf_eq hj, Job.entries, if_pos hm]
  split_ifs <;> simp [Job.debit, Job.refund, hcost]

/-- The books are in order exactly when every cancelled job got its refund. -/
theorem CreditInv.conserved_iff (h : CreditInv opening db) : CreditsConserved opening db ↔ Refunded db := by
  constructor
  · intro hc j hj hm hs ho
    have hne := hc.refunded j hj hm hs ho
    rw [(h.modal hj hm).2] at hne
    by_contra hr
    exact hne (if_neg hr)
  · intro hr
    refine ⟨h.balance, fun j hj hm => ⟨j.debit, (h.modal hj hm).1, rfl, rfl⟩, fun j hj hm e he => ?_,
      fun e he hpos => ?_, fun j hj hm hs ho => ?_⟩
    · rw [(h.modal hj hm).2] at he ⊢
      split_ifs at he ⊢ with hsome
      · obtain rfl := List.mem_singleton.mp he
        exact ⟨rfl, rfl, rfl⟩
      · cases he
    · obtain ⟨j, hj, hmem⟩ := h.entry_of_job he
      unfold Job.entries at hmem
      split_ifs at hmem with hm hsome
      · have hrow := (h.rows j hj).refunded hsome
        rcases List.mem_pair.mp hmem with rfl | rfl
        · exact absurd hpos (by simp [Job.debit])
        · exact ⟨j, hj, rfl, hrow.1, hrow.2⟩
      · obtain rfl := List.mem_singleton.mp hmem
        exact absurd hpos (by simp [Job.debit])
      · cases hmem
    · rw [(h.modal hj hm).2, if_pos (hr j hj hm hs ho)]
      simp

/-! ### Steps -/

/-- The key of a job's debit is unused before the job is inserted. -/
theorem CreditInv.unused_debit (h : CreditInv opening db) {id : String} (hid : id ∉ db.jobs.map Job.id) :
    db.unusedKey s!"{id}:debit" := by
  intro e he hkey
  obtain ⟨j, hj, hmem⟩ := h.entry_of_job he
  rcases mem_entries hmem with rfl | rfl
  · exact hid (debit_key_inj hkey ▸ List.mem_map_of_mem hj)
  · exact debit_key_ne_refund_key _ _ hkey.symm

/-- The key of a live job's refund is unused. -/
theorem CreditInv.unused_refund (h : CreditInv opening db) (hids : (db.jobs.map Job.id).Nodup) {j : Job}
    (hj : j ∈ db.jobs) (hlive : j.live) : db.unusedKey j.refund.idempotencyKey := by
  intro e he hkey
  obtain ⟨k, hk, hmem⟩ := h.entry_of_job he
  rcases mem_entries hmem with rfl | rfl
  · exact debit_key_ne_refund_key _ _ hkey
  · obtain rfl := List.inj_on_of_nodup_map hids hk hj (refund_key_inj hkey)
    have hnone := ((h.rows k hk).live hlive).2
    unfold Job.entries at hmem
    rw [hnone] at hmem
    split_ifs at hmem with hm hs
    · cases hs
    · have := congrArg LedgerEntry.idempotencyKey (List.mem_singleton.mp hmem)
      exact debit_key_ne_refund_key _ _ this.symm
    · cases hmem

theorem CreditRow.move {env : GatewayEnv} {w : World} {op : Op} {j j' : Job} (h : CreditRow j)
    (hm : Move env w op j j') : CreditRow j' := by
  have hlive : j.live → j.creditRefundedAt.isSome ≠ true := fun hl hs => by
    rw [(h.live hl).2] at hs
    cases hs
  cases hm with
  | failExhausted hrun =>
    exact ⟨h.cost, by simp [Job.live, Job.failExhausted], fun hs => absurd hs (hlive (Or.inr hrun))⟩
  | startAttempt hl => exact ⟨h.cost, fun _ => h.live hl, fun hs => absurd hs (hlive hl)⟩
  | succeed hrun => exact ⟨h.cost, by simp [Job.live, Job.succeed], fun hs => absurd hs (hlive (Or.inr hrun))⟩
  | persist o hdone =>
    refine ⟨h.cost, fun hl => ?_, fun hs => ?_⟩
    · rcases hl with hl | hl <;> exact absurd (hdone.symm.trans hl) (by decide)
    · exact absurd (hdone.symm.trans (h.refunded hs).1) (by decide)
  | fail hrun => exact ⟨h.cost, by simp [Job.live, Job.fail], fun hs => absurd hs (hlive (Or.inr hrun))⟩
  | retry hrun =>
    have hl := h.live (Or.inr hrun)
    have hn := hlive (Or.inr hrun)
    unfold Job.retry
    dsimp only
    by_cases hlt : j.attempts < j.maxAttempts
    · rw [if_pos hlt]
      exact ⟨h.cost, fun _ => hl, fun hs => absurd hs hn⟩
    · rw [if_neg hlt]
      exact ⟨h.cost, by simp [Job.live], fun hs => absurd hs hn⟩
  | recordCall hrun => exact ⟨h.cost, h.live, h.refunded⟩
  | recordCancelled => exact ⟨h.cost, h.live, h.refunded⟩
  | cancel hl => exact ⟨h.cost, by simp [Job.live, Job.cancel], fun _ => ⟨rfl, (h.live hl).1⟩⟩
  | withdraw _ hhit =>
    exact ⟨h.cost, by simp [Job.live, Job.withdraw], fun hs => absurd hs (hlive (withdrawalHits_live hhit))⟩

/-- Only the owner's cancellation changes what the ledger has to hold. -/
theorem Move.creditRefundedAt {env : GatewayEnv} {w : World} {op : Op} {j j' : Job} (hm : Move env w op j j')
    (hop : ∀ user id, op ≠ .cancelOwnedJob user id) : j'.creditRefundedAt = j.creditRefundedAt := by
  cases hm with
  | retry hrun =>
    rw [Job.retry]
    split_ifs <;> rfl
  | cancel => exact absurd rfl (hop _ _)
  | _ => rfl

theorem CreditInv.rowsMove {env : GatewayEnv} {w : World} {op : Op} (h : CreditInv opening db)
    (hm : RowsMove env w op db.jobs db'.jobs) (hop : ∀ user id, op ≠ .cancelOwnedJob user id)
    (hl : db'.creditLedger = db.creditLedger) (ha : db'.creditAccounts = db.creditAccounts) :
    CreditInv opening db' := by
  have hacc : ∀ user, db.hasAccount user → db'.hasAccount user := fun user hu => by
    rw [Db.hasAccount, ha]
    exact hu
  have row : ∀ {j j' : Job}, Moves env w op j j' → CreditRow j →
      CreditRow j' ∧ j'.creditRefundedAt = j.creditRefundedAt := fun hmv hr => by
    induction hmv with
    | refl => exact ⟨hr, rfl⟩
    | tail _ hmv ih => exact ⟨ih.1.move hmv, (hmv.creditRefundedAt hop).trans ih.2⟩
  refine ⟨fun j' hj' => ?_, fun j' hj' => ?_, fun e he => ?_, fun j' hj' => ?_, fun user => ?_⟩
  · obtain ⟨j, hj, hmv⟩ := hm.origin hj'
    exact (row hmv (h.rows j hj)).1
  · obtain ⟨j, hj, hmv⟩ := hm.origin hj'
    rw [hl, hmv.sameRequest.id, entries_congr hmv.sameRequest (row hmv (h.rows j hj)).2]
    exact h.entries j hj
  · rw [hl] at he
    obtain ⟨j, hj, hid⟩ := h.known e he
    obtain ⟨j', hj', hmv⟩ := hm.image hj
    exact ⟨j', hj', hid.trans hmv.sameRequest.id.symm⟩
  · obtain ⟨j, hj, hmv⟩ := hm.origin hj'
    rw [hmv.sameRequest.ownerUserId]
    exact hacc _ (h.accounts j hj)
  · rw [Db.balance, Db.ledgerTotal, hl, ha]
    exact h.balance user

theorem postCredit_hasAccount {e : LedgerEntry} {user : String} (h : db.hasAccount user) :
    (postCredit e db).hasAccount user := by
  obtain ⟨a, ha, hu⟩ := h
  unfold postCredit Db.hasAccount
  split_ifs
  · exact ⟨a, ha, hu⟩
  · exact ⟨_, Table.mem_update.mpr ⟨a, ha, rfl⟩, by split_ifs <;> exact hu⟩

/-- A new row with the entries it asks for. -/
theorem CreditInv.insert (h : CreditInv opening db) {job : Job} (hid : job.id ∉ db.jobs.map Job.id)
    (hrow : CreditRow job) (hjobs : db'.jobs = db.jobs ++ [job])
    (hledger : db'.creditLedger = db.creditLedger ++ job.entries) (hacc : db'.hasAccount job.ownerUserId)
    (hkeep : ∀ user, db.hasAccount user → db'.hasAccount user)
    (hbal : ∀ user, db'.balance user = opening user + db'.ledgerTotal user) : CreditInv opening db' := by
  have about : ∀ e ∈ job.entries, e.sourceId = job.id := fun e he => by
    rcases mem_entries he with rfl | rfl <;> rfl
  refine ⟨fun j hj => ?_, fun j hj => ?_, fun e he => ?_, fun j hj => ?_, hbal⟩
  · rw [hjobs] at hj
    rcases List.mem_append.mp hj with hj | hj
    · exact h.rows j hj
    · rw [List.mem_singleton.mp hj]
      exact hrow
  · rw [hjobs] at hj
    rw [hledger, List.filter_append]
    rcases List.mem_append.mp hj with hj | hj
    · have hne : job.id ≠ j.id := fun he => hid (he ▸ List.mem_map_of_mem hj)
      rw [h.entries j hj, List.filter_eq_nil_iff.mpr fun e he => by simp [about e he, hne], List.append_nil]
    · obtain rfl := List.mem_singleton.mp hj
      rw [List.filter_eq_nil_iff.mpr fun e he => ?_, List.filter_eq_self.mpr fun e he => by simp [about e he],
        List.nil_append]
      obtain ⟨k, hk, hkid⟩ := h.known e he
      have hne : k.id ≠ j.id := fun heq => hid (heq ▸ List.mem_map_of_mem hk)
      simp [hkid, hne]
  · rw [hledger] at he
    rw [hjobs]
    rcases List.mem_append.mp he with he | he
    · obtain ⟨j, hj, hjid⟩ := h.known e he
      exact ⟨j, List.mem_append_left _ hj, hjid⟩
    · exact ⟨job, List.mem_append_right _ (List.mem_singleton_self _), about e he⟩
  · rw [hjobs] at hj
    rcases List.mem_append.mp hj with hj | hj
    · exact hkeep _ (h.accounts j hj)
    · rw [List.mem_singleton.mp hj]
      exact hacc

theorem creditRow_newQueuedJob (now : ℕ) (user id : String) (input : CreateJobInput) (key : Option String)
    (payload : Json) (timeout : ℕ) :
    CreditRow (newQueuedJob now user id input key payload input.provider.costCredits timeout) where
  cost hm := by
    have hm : input.provider = .modal := hm
    simp [newQueuedJob, hm, Provider.costCredits]
  live _ := ⟨rfl, rfl⟩
  refunded hs := by cases hs

/-- Opening an account changes no balance. -/
theorem CreditInv.ensure (h : CreditInv opening db) (user : String) : CreditInv opening (ensureCreditAccount user db) := by
  refine ⟨fun j hj => ?_, fun j hj => ?_, fun e he => ?_, fun j hj => ?_, fun u => ?_⟩
  · exact h.rows j (ensureCreditAccount_jobs user db ▸ hj)
  · rw [ensureCreditAccount_ledger]
    exact h.entries j (ensureCreditAccount_jobs user db ▸ hj)
  · rw [ensureCreditAccount_jobs]
    exact h.known e (ensureCreditAccount_ledger ▸ he)
  · exact ensureCreditAccount_hasAccount (h.accounts j (ensureCreditAccount_jobs user db ▸ hj))
  · rw [ensureCreditAccount_balance, Db.ledgerTotal, ensureCreditAccount_ledger]
    exact h.balance u

/-- A created job is charged with the row it inserts. -/
theorem CreditInv.create (h : CreditInv opening db) {env : GatewayEnv} {r : Readings} {now : ℕ} {user id : String}
    {input : CreateJobInput} {job : Job} {flag : Bool}
    (hc : CreateOutcome env r now user id input db db' job flag) : CreditInv opening db' := by
  have hopen := h.ensure user
  have hself : (ensureCreditAccount user db).hasAccount user := ensureCreditAccount_hasAccount_self
  cases hc with
  | replay hmem => exact hopen
  | fixture hjob hp hfresh =>
    subst hjob
    have hprov : (newFixtureJob now user id input (input.idempotencyKey.map (env.scopedJobIdempotencyKey user))
      r.authoritativePayload (env.fixtureJobOutput input.kind r.authoritativePayload)).provider = .fixture := hp
    refine hopen.insert ?_ ⟨fun hm => ?_, fun hl => ?_, fun hs => ?_⟩ rfl ?_ hself (fun _ hu => hu) hopen.balance
    · simpa [newFixtureJob, newQueuedJob] using hfresh
    · rw [hprov] at hm
      cases hm
    · rcases hl with hl | hl <;> cases hl
    · cases hs
    · rw [Job.entries, hprov, if_neg (by decide), List.append_nil]
  | live hjob hp hfresh =>
    subst hjob
    set job := newQueuedJob now user id input (input.idempotencyKey.map (env.scopedJobIdempotencyKey user))
      r.authoritativePayload input.provider.costCredits (jobTimeoutSeconds input.kind r.authoritativePayload) with hjob
    have hid : job.id ∉ (ensureCreditAccount user db).jobs.map Job.id := by
      rw [ensureCreditAccount_jobs]
      exact hfresh
    have hrow : CreditRow job := creditRow_newQueuedJob ..
    have hprov : job.provider = input.provider := rfl
    by_cases hm : input.provider = .modal
    · have hcost : input.provider.costCredits = 1 := by rw [hm]; rfl
      have hunused := hopen.unused_debit hid
      rw [if_pos (by omega)]
      have hentries : job.entries = [job.debit] := by
        rw [Job.entries, hprov, if_pos hm]
        rfl
      refine hopen.insert hid hrow (by simp) ?_ ?_ (fun u hu => ?_) fun u => ?_
      · rw [postCredit_eq hunused, hentries]
        rfl
      · exact postCredit_hasAccount hself
      · exact postCredit_hasAccount hu
      · rw [postCredit_balance hunused hself, postCredit_ledgerTotal hunused]
        have hbal := hopen.balance u
        simp only [Db.balance, Db.ledgerTotal] at hbal ⊢
        rw [hbal]
        exact Int.add_assoc _ _ _
    · have hcost : input.provider.costCredits = 0 := by
        cases hip : input.provider with
        | modal => exact absurd hip hm
        | fixture => rfl
        | localWorker => rfl
      rw [if_neg (by omega)]
      refine hopen.insert hid hrow rfl ?_ hself (fun _ hu => hu) hopen.balance
      rw [Job.entries, hprov, if_neg hm, List.append_nil]

/-- What cancelling does to the books. -/
theorem cancelOwnedJob_credits {now : ℕ} {user jobId : String} {row : Job}
    (h : cancelOwnedJob now user jobId db = .ok (db', row)) :
    db' = db ∨ ∃ found ∈ db.jobs, found.ownerUserId = user ∧ found.id = jobId ∧ found.live ∧
      db'.jobs = Table.update (fun j => j.ownerUserId = user && j.id = jobId) (Job.cancel now) db.jobs ∧
      db'.creditLedger = (refundCancelled user found db).creditLedger ∧
      db'.creditAccounts = (refundCancelled user found db).creditAccounts := by
  unfold cancelOwnedJob at h
  split at h
  · cases h
  · rename_i found hfound
    have hid := List.find?_some hfound
    simp only [Bool.and_eq_true, decide_eq_true_eq] at hid
    split_ifs at h with hc hl
    · exact Or.inl (Prod.mk.inj (Except.ok.inj h)).1.symm
    · obtain ⟨rfl, -⟩ := Prod.mk.inj (Except.ok.inj h)
      exact Or.inr ⟨found, List.mem_of_find?_eq_some hfound, hid.1, hid.2, by unfold Job.live; tauto, rfl, rfl, rfl⟩

/-- Cancelling returns the credit of a Modal job, once. -/
theorem CreditInv.cancel (h : CreditInv opening db) (hids : (db.jobs.map Job.id).Nodup) {now : ℕ}
    {user jobId : String} {row : Job} (hc : cancelOwnedJob now user jobId db = .ok (db', row)) :
    CreditInv opening db' := by
  rcases cancelOwnedJob_credits hc with rfl | ⟨found, hmem, howner, hid, hlive, hjobs, hledger, haccounts⟩
  · exact h
  have hrow := h.rows found hmem
  obtain ⟨hout, hnone⟩ := hrow.live hlive
  have hunused := h.unused_refund hids hmem hlive
  -- a live job is refundable exactly when it is a Modal job
  have hrefund : refundCancelled user found db = if found.provider = .modal then postCredit found.refund db else db := by
    by_cases hm : found.provider = .modal
    · have href : found.refundable = true := by simp [Job.refundable, hm, hout, hnone, hrow.cost hm]
      rw [refundCancelled, if_pos href, if_pos hm, Job.refund, howner]
    · have href : found.refundable = false := by simp [Job.refundable, hm]
      rw [refundCancelled, href, if_neg hm]
      rfl
  have hentries : (found.cancel now).entries =
      found.entries ++ if found.provider = .modal then [found.refund] else [] := by
    by_cases hm : found.provider = .modal
    · have href : found.refundable = true := by simp [Job.refundable, hm, hout, hnone, hrow.cost hm]
      simp [Job.entries, Job.cancel, hm, href, hnone, Job.debit, Job.refund]
    · simp [Job.entries, Job.cancel, hm]
  have hposted : db'.creditLedger = db.creditLedger ++ if found.provider = .modal then [found.refund] else [] := by
    rw [hledger, hrefund]
    split_ifs
    · rw [postCredit_eq hunused]
    · simp
  have origin : ∀ j' ∈ db'.jobs, j' = found.cancel now ∨ (j' ∈ db.jobs ∧ j'.id ≠ found.id) := by
    intro j' hj'
    rw [hjobs] at hj'
    obtain ⟨j, hj, rfl⟩ := Table.mem_update.mp hj'
    by_cases hjid : j.id = found.id
    · obtain rfl := List.inj_on_of_nodup_map hids hj hmem hjid
      simp [howner, hid]
    · exact Or.inr ⟨by simpa [hid ▸ hjid] using hj, by simp [hid ▸ hjid, hjid]⟩
  have image : ∀ j ∈ db.jobs, ∃ j' ∈ db'.jobs, j'.id = j.id := fun j hj => by
    rw [hjobs]
    exact ⟨_, Table.mem_update.mpr ⟨j, hj, rfl⟩, by split_ifs <;> rfl⟩
  have hacc : ∀ u, db.hasAccount u → db'.hasAccount u := fun u hu => by
    rw [Db.hasAccount, haccounts, hrefund]
    split_ifs
    · exact postCredit_hasAccount hu
    · exact hu
  refine ⟨fun j' hj' => ?_, fun j' hj' => ?_, fun e he => ?_, fun j' hj' => ?_, fun u => ?_⟩
  · rcases origin j' hj' with rfl | ⟨hj, -⟩
    · exact ⟨hrow.cost, by simp [Job.live, Job.cancel], fun _ => ⟨rfl, hout⟩⟩
    · exact h.rows j' hj
  · rw [hposted, List.filter_append]
    rcases origin j' hj' with rfl | ⟨hj, hne⟩
    · rw [hentries, show (found.cancel now).id = found.id from rfl, h.entries found hmem]
      split_ifs <;> simp [Job.refund]
    · rw [h.entries j' hj]
      split_ifs <;> simp [Job.refund, Ne.symm hne]
  · rw [hposted] at he
    rcases List.mem_append.mp he with he | he
    · obtain ⟨j, hj, hjid⟩ := h.known e he
      obtain ⟨j', hj', hid'⟩ := image j hj
      exact ⟨j', hj', hjid.trans hid'.symm⟩
    · obtain ⟨j', hj', hid'⟩ := image found hmem
      split_ifs at he
      · rw [List.mem_singleton.mp he]
        exact ⟨j', hj', hid'.symm⟩
      · cases he
  · rcases origin j' hj' with rfl | ⟨hj, -⟩
    · exact hacc _ (h.accounts found hmem)
    · exact hacc _ (h.accounts j' hj)
  · rw [Db.balance, Db.ledgerTotal, hledger, haccounts, hrefund, ← Db.balance, ← Db.ledgerTotal]
    split_ifs
    · rw [postCredit_balance hunused (h.accounts found hmem), postCredit_ledgerTotal hunused, h.balance u]
      exact Int.add_assoc _ _ _
    · exact h.balance u

end

/-- Only creating and cancelling jobs touch the books. -/
theorem exec_books (env : GatewayEnv) (w : World) (op : Op) (hcreate : ∀ r u id i, op ≠ .createJob r u id i)
    (hcancel : ∀ user id, op ≠ .cancelOwnedJob user id) :
    (exec env w op).db.creditLedger = w.db.creditLedger ∧ (exec env w op).db.creditAccounts = w.db.creditAccounts := by
  have hworker := exec_gatewayTables env w op
  cases op with
  | createJob r u id i => exact absurd rfl (hcreate r u id i)
  | cancelOwnedJob user id => exact absurd rfl (hcancel user id)
  | recordConsent r user input =>
    rw [exec]
    split
    · exact ⟨rfl, rfl⟩
    · rename_i db e hc
      unfold recordConsent at hc
      split at hc
      · cases hc
      · split at hc
        · split_ifs at hc
          obtain ⟨rfl, -⟩ := Prod.mk.inj (Except.ok.inj hc)
          exact ⟨rfl, rfl⟩
        · dsimp only at hc
          split at hc <;>
          · obtain ⟨rfl, -⟩ := Prod.mk.inj (Except.ok.inj hc)
            exact ⟨rfl, rfl⟩
  | _ =>
    obtain ⟨hl, ha⟩ := Prod.mk.inj (hworker rfl)
    exact ⟨hl, (Prod.mk.inj ha).1⟩

/-- **Step lemma**: every transaction keeps balances, debits and refunds in step with the rows. -/
theorem exec_creditInv (env : GatewayEnv) {opening : String → ℤ} (w : World) (op : Op) (hq : QueueInv w)
    (h : CreditInv opening w.db) : CreditInv opening (exec env w op).db := by
  by_cases hcreate : ∃ r user id input, op = .createJob r user id input
  · obtain ⟨r, user, id, input, rfl⟩ := hcreate
    rw [exec]
    split
    · exact h
    · rename_i hc
      exact h.create (createJob_outcome hc).2
  · by_cases hcancel : ∃ user id, op = .cancelOwnedJob user id
    · obtain ⟨user, id, rfl⟩ := hcancel
      rw [exec]
      split
      · exact h
      · rename_i hc
        exact h.cancel hq.jobs.ids hc
    · push Not at hcreate hcancel
      obtain ⟨hl, ha⟩ := exec_books env w op hcreate hcancel
      exact h.rowsMove (exec_moves env w op hq.jobs.ids hcreate) hcancel hl ha

/-- A change that cancels a Modal job without a refund is a withdrawal that hits it. -/
theorem Move.refunded {env : GatewayEnv} {w : World} {op : Op} {j j' : Job} (hm : Move env w op j j')
    (hrow : CreditRow j) (hspare : ∀ r user input, op = .recordConsent r user input →
      withdraws env r user input w.db = true → withdrawalHits user input.purpose input.subjectId j = true →
      j.provider ≠ .modal)
    (h : j.provider = .modal → j.status = .cancelled → j.output = none → j.creditRefundedAt.isSome = true) :
    j'.provider = .modal → j'.status = .cancelled → j'.output = none → j'.creditRefundedAt.isSome = true := by
  cases hm with
  | failExhausted => exact fun _ hs => by cases hs
  | startAttempt => exact fun _ hs => by cases hs
  | succeed => exact fun _ hs => by cases hs
  | persist o hdone => exact fun _ hs => absurd (hdone.symm.trans hs) (by decide)
  | fail => exact fun _ hs => by cases hs
  | retry hrun =>
    unfold Job.retry
    dsimp only
    by_cases hlt : j.attempts < j.maxAttempts
    · rw [if_pos hlt]
      exact fun _ hs => by cases hs
    · rw [if_neg hlt]
      exact fun _ hs => by cases hs
  | recordCall => exact h
  | recordCancelled => exact h
  | cancel hlive =>
    intro hp _ _
    have hp : j.provider = .modal := hp
    have href : j.refundable = true := by
      simp [Job.refundable, hp, hrow.cost hp, (hrow.live hlive).1, (hrow.live hlive).2]
    simp [Job.cancel, href, (hrow.live hlive).2]
  | withdraw hw hhit => exact fun hp _ _ => absurd hp (hspare _ _ _ rfl hw hhit)

/-- A transaction that spares Modal jobs leaves no cancelled job without its refund. -/
theorem exec_refunded (env : GatewayEnv) {opening : String → ℤ} (w : World) (op : Op) (hq : QueueInv w)
    (h : CreditInv opening w.db) (hr : Refunded w.db) (hspare : SparesModal env w op) :
    Refunded (exec env w op).db := by
  by_cases hcreate : ∃ r user id input, op = .createJob r user id input
  · obtain ⟨r, user, id, input, rfl⟩ := hcreate
    rw [exec]
    split
    · exact hr
    · rename_i db job flag hc
      intro j hj
      rcases (createJob_outcome hc).2.origin hj with hj | ⟨-, -, -, hs⟩
      · exact hr j hj
      · rcases hs with hs | hs <;> exact fun _ hs' => absurd (hs.symm.trans hs') (by decide)
  · push Not at hcreate
    have hmoves := exec_moves env w op hq.jobs.ids hcreate
    intro j' hj'
    obtain ⟨j, hj, hmv⟩ := hmoves.origin hj'
    have spare : ∀ k, Moves env w op j k → ∀ r user input, op = .recordConsent r user input →
        withdraws env r user input w.db = true → withdrawalHits user input.purpose input.subjectId k = true →
        k.provider ≠ .modal := by
      rintro k hk r user input rfl hw hhit
      -- a row that a withdrawal hits is the row as it was before
      have hkj : k = j := by
        cases hk with
        | refl => rfl
        | tail _ hlast =>
          cases hlast with
          | persist o hdone =>
            rcases withdrawalHits_live hhit with hl | hl <;> exact absurd (hdone.symm.trans hl) (by decide)
          | withdraw => rcases withdrawalHits_live hhit with hl | hl <;> cases hl
      rw [hkj] at hhit ⊢
      exact hspare hw j hj hhit
    have along : ∀ k, Moves env w op j k → CreditRow k ∧
        (k.provider = .modal → k.status = .cancelled → k.output = none → k.creditRefundedAt.isSome = true) := by
      intro k hk
      induction hk with
      | refl => exact ⟨h.rows j hj, hr j hj⟩
      | tail hpre hlast ih => exact ⟨ih.1.move hlast, hlast.refunded ih.1 (spare _ hpre) ih.2⟩
    exact (along j' hmv).2

/-- A withdrawal that hits a Modal job leaves it cancelled without a refund. -/
theorem not_refunded_of_withdrawal (env : GatewayEnv) {opening : String → ℤ} (w : World) (op : Op)
    (h : CreditInv opening w.db) (hspare : ¬ SparesModal env w op) : ¬ Refunded (exec env w op).db := by
  cases op with
  | recordConsent r user input =>
    simp only [SparesModal, ne_eq, Classical.not_imp, not_forall, not_not] at hspare
    obtain ⟨hw, j, hj, hhit, hm⟩ := hspare
    obtain ⟨db', e, hc⟩ := recordConsent_of_withdraws w.now hw
    have hjobs := (recordConsent_eq_ok hc).2
    rw [if_pos hw] at hjobs
    simp only [exec, hc]
    intro hr
    have hmem : j.withdraw w.now input.purpose ∈ db'.jobs := by
      rw [hjobs]
      exact Table.mem_update.mpr ⟨j, hj, if_pos hhit⟩
    obtain ⟨hout, hnone⟩ := (h.rows j hj).live (withdrawalHits_live hhit)
    have hsome : j.creditRefundedAt.isSome = true := hr (j.withdraw w.now input.purpose) hmem hm rfl hout
    rw [hnone] at hsome
    cases hsome
  | _ => exact absurd trivial hspare

theorem creditInv_opened (accounts : List CreditAccount) :
    CreditInv (World.opened accounts).db.balance (World.opened accounts).db := by
  constructor <;> simp [World.opened, World.empty, Db.empty, Db.ledgerTotal]

theorem queueInv_opened (accounts : List CreditAccount) : QueueInv (World.opened accounts) where
  jobs := ⟨List.nodup_nil, List.nodup_nil, by simp [World.opened, Db.empty]⟩
  record := by constructor <;> simp [World.opened, World.empty, Db.empty]

/-- **Run lemma**: the books match the rows in every state reached while Modal jobs are spared. -/
theorem steps_creditInv {env : GatewayEnv} {accounts : List CreditAccount} {w : World}
    (hw : (system env).Steps (SparesModal env) (World.opened accounts) w) :
    QueueInv w ∧ CreditInv (World.opened accounts).db.balance w.db ∧ Refunded w.db := by
  refine System.Steps.invariant (I := fun v => QueueInv v ∧ CreditInv (World.opened accounts).db.balance v.db ∧
    Refunded v.db) ?_ hw ⟨queueInv_opened accounts, creditInv_opened accounts, by simp [Refunded, World.opened, Db.empty]⟩
  rintro s op s' ⟨hq, h, hr⟩ hok ⟨hadm, rfl⟩
  exact ⟨exec_inv env s op hq hadm, exec_creditInv env s op hq h, exec_refunded env s op hq h hr hok⟩

/-- **Credit conservation**: as long as no withdrawal hits a Modal job, the books are in order in
every state reached, and the first withdrawal that does puts them out of order. -/
theorem creditConservation (env : GatewayEnv) (accounts : List CreditAccount) (w : World)
    (hw : (system env).Steps (SparesModal env) (World.opened accounts) w) :
    CreditsConserved (World.opened accounts).db.balance w.db ∧
      ∀ op, admissible w op →
        (CreditsConserved (World.opened accounts).db.balance (exec env w op).db ↔ SparesModal env w op) := by
  obtain ⟨hq, h, hr⟩ := steps_creditInv hw
  refine ⟨h.conserved_iff.mpr hr, fun op hadm => ?_⟩
  rw [(exec_creditInv env w op hq h).conserved_iff]
  constructor
  · intro hr'
    by_contra hs
    exact not_refunded_of_withdrawal env w op h hs hr'
  · exact exec_refunded env w op hq h hr

/-- A Modal photoscan of a photo that was consented to. -/
def modalPhotoscan : List Op :=
  [photoConsent .grant,
   .createJob sampleReadings "user-1" "job-1"
     { kind := .photoscanSingle, provider := .modal, payload := photoscanPayload, idempotencyKey := some "k" },
   .createJob sampleReadings "user-1" "job-2"
     { kind := .photoscanSingle, provider := .modal, payload := photoscanPayload, idempotencyKey := some "k" }]

/-- The replayed Modal photoscan is charged once, and cancelling it returns the credit. -/
theorem creditConservation_photoscan :
    CreditsConserved (World.opened []).db.balance
        (run sampleEnv (World.opened []) (modalPhotoscan ++ [.cancelOwnedJob "user-1" "job-1"])).db ∧
      (run sampleEnv (World.opened []) (modalPhotoscan ++ [.cancelOwnedJob "user-1" "job-1"])).db.creditLedger.map
        LedgerEntry.deltaCredits = [-1, 1] :=
  ⟨(creditConservation sampleEnv [] _ (steps_run (by decide))).1, by decide⟩

/-- Withdrawing the consent of a Modal photoscan cancels the job and keeps the credit. -/
theorem creditConservation_broken_by_withdrawal :
    (system sampleEnv).Reachable (run sampleEnv .empty (modalPhotoscan ++ [photoConsent .withdraw])) ∧
      ¬ CreditsConserved World.empty.db.balance
        (run sampleEnv .empty (modalPhotoscan ++ [photoConsent .withdraw])).db := by
  refine ⟨steps_run (by decide), fun hc => ?_⟩
  have := hc.refunded
  revert this
  decide

end Forge.Queue
