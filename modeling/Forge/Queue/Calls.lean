import Forge.Queue.Moves

/-!
# Provider calls

The rows of `job_provider_calls` and the `provider_*` columns of the jobs. A call is
inserted as submitted when its job points to no call, and every path that takes
the pointer away closes the call, so a submitted call is the one its job points
to (`CallsInv`). Hence **at most one call per job is submitted**
(`CallsInv.one_submitted`), whoever cancels or records what.

A transaction of a worker that does not hold the lease leaves the row of a leased
job and the row of its call as they are (`exec_untouched`).
-/

namespace Forge.Queue

/-- Keeps its key, and is as it was or no longer submitted. -/
structure Closing (k k' : ProviderCall) : Prop where
  callId : k'.callId = k.callId
  jobId : k'.jobId = k.jobId
  attempt : k'.attempt = k.attempt
  status : k' = k ∨ k'.status ≠ .submitted

theorem Closing.refl (k : ProviderCall) : Closing k k := ⟨rfl, rfl, rfl, Or.inl rfl⟩

theorem Closing.submitted {k k' : ProviderCall} (h : Closing k k') (hs : k'.status = .submitted) :
    k.status = .submitted := by
  rcases h.status with heq | hne
  · rwa [← heq]
  · exact absurd hs hne

/-- The invariant of calls and the jobs that point to them. -/
structure CallsInv (issued : List ClaimedJob) (db : Db) : Prop where
  keys : (db.providerCalls.map ProviderCall.callId).Nodup
  known : ∀ k ∈ db.providerCalls, k.jobId ∈ db.jobs.map Job.id
  /-- A job points to calls of its own. -/
  pointed : ∀ j ∈ db.jobs, ∀ k ∈ db.providerCalls, j.providerCallId = some k.callId → k.jobId = j.id
  /-- A submitted call is the one its job points to. -/
  current : ∀ k ∈ db.providerCalls, k.status = .submitted → ∀ j ∈ db.jobs, j.id = k.jobId →
    j.providerCallId = some k.callId
  /-- The call of a running job was there when the job was claimed or is of the claim's own attempt. -/
  held : ∀ j ∈ db.jobs, j.status = .running → ∀ k ∈ db.providerCalls, j.providerCallId = some k.callId →
    ∀ h, latestClaim issued j.id = some h → h.providerCallId = some k.callId ∨ k.attempt = h.attempts

/-- The submitted calls of a job. -/
def Db.submittedCalls (db : Db) (id : String) : List ProviderCall :=
  db.providerCalls.filter fun k => k.jobId = id && k.status = .submitted

/-- A list without repetition whose elements are all equal has at most one. -/
theorem length_le_one_of_forall_eq {α : Type} {xs : List α} (hn : xs.Nodup) (h : ∀ x ∈ xs, ∀ y ∈ xs, x = y) :
    xs.length ≤ 1 := by
  match xs, hn with
  | [], _ => simp
  | [_], _ => simp
  | a :: b :: rest, hn =>
    have hab := h a (by simp) b (by simp)
    exact absurd hab (by
      rintro rfl
      simp at hn)

/-- **At most one call of a job is submitted.** -/
theorem CallsInv.one_submitted {issued : List ClaimedJob} {db : Db} (h : CallsInv issued db) (id : String) :
    (db.submittedCalls id).length ≤ 1 := by
  refine length_le_one_of_forall_eq ((h.keys.of_map _).filter _) fun k hk l hl => ?_
  simp only [Db.submittedCalls, List.mem_filter, Bool.and_eq_true, decide_eq_true_eq] at hk hl
  obtain ⟨hk, hkid, hks⟩ := hk
  obtain ⟨hl, hlid, hls⟩ := hl
  obtain ⟨j, hj, hjid⟩ := List.mem_map.mp (h.known k hk)
  have hpk := h.current k hk hks j hj hjid
  have hpl := h.current l hl hls j hj (hjid.trans (hkid.trans hlid.symm))
  exact List.inj_on_of_nodup_map h.keys hk hl (Option.some.inj (hpk.symm.trans hpl))

/-! ### Steps -/

/-- Rows keep their pointer unless their calls are closed, and calls are only ever closed. -/
theorem CallsInv.frame {issued : List ClaimedJob} {db db' : Db} (h : CallsInv issued db) {f : Job → Job}
    {new : Option Job} {g : ProviderCall → ProviderCall} (hjobs : db'.jobs = db.jobs.map f ++ new.toList)
    (hcalls : db'.providerCalls = db.providerCalls.map g)
    (hf : ∀ j ∈ db.jobs, (f j).id = j.id ∧ ((f j).status = .running → j.status = .running) ∧
      ((f j).providerCallId = j.providerCallId ∨
        ((f j).providerCallId = none ∧ ∀ k ∈ db.providerCalls, k.jobId = j.id → (g k).status ≠ .submitted)))
    (hg : ∀ k ∈ db.providerCalls, Closing k (g k))
    (hnew : ∀ j ∈ new, j.providerCallId = none ∧ j.id ∉ db.jobs.map Job.id) : CallsInv issued db' := by
  have row : ∀ j' ∈ db'.jobs, (∃ j ∈ db.jobs, f j = j') ∨ j' ∈ new := fun j' hj' => by
    rw [hjobs] at hj'
    rcases List.mem_append.mp hj' with hj' | hj'
    · exact Or.inl (List.mem_map.mp hj')
    · exact Or.inr (by simpa using hj')
  have call : ∀ k' ∈ db'.providerCalls, ∃ k ∈ db.providerCalls, g k = k' := fun k' hk' => by
    rw [hcalls] at hk'
    exact List.mem_map.mp hk'
  have pointer : ∀ j ∈ db.jobs, ∀ c, (f j).providerCallId = some c → j.providerCallId = some c := fun j hj c hc => by
    rcases (hf j hj).2.2 with heq | ⟨hnone, -⟩
    · rwa [← heq]
    · rw [hnone] at hc
      cases hc
  refine ⟨?_, fun k' hk' => ?_, fun j' hj' k' hk' hp => ?_, fun k' hk' hs j' hj' hid => ?_,
    fun j' hj' hrun k' hk' hp c hc => ?_⟩
  · have hkeys : (db.providerCalls.map g).map ProviderCall.callId = db.providerCalls.map ProviderCall.callId := by
      rw [List.map_map]
      exact List.map_congr_left fun k hk => (hg k hk).callId
    rw [hcalls, hkeys]
    exact h.keys
  · obtain ⟨k, hk, rfl⟩ := call k' hk'
    obtain ⟨j, hj, hid⟩ := List.mem_map.mp (h.known k hk)
    rw [(hg k hk).jobId, ← hid, ← (hf j hj).1, hjobs, List.map_append]
    exact List.mem_append_left _ (List.mem_map_of_mem (List.mem_map_of_mem hj))
  · obtain ⟨k, hk, rfl⟩ := call k' hk'
    rcases row j' hj' with ⟨j, hj, rfl⟩ | hj'
    · rw [(hg k hk).jobId, (hf j hj).1]
      rw [(hg k hk).callId] at hp
      exact h.pointed j hj k hk (pointer j hj _ hp)
    · rw [(hnew j' hj').1] at hp
      cases hp
  · obtain ⟨k, hk, rfl⟩ := call k' hk'
    rw [(hg k hk).callId]
    rw [(hg k hk).jobId] at hid
    rcases row j' hj' with ⟨j, hj, rfl⟩ | hj'
    · rw [(hf j hj).1] at hid
      rcases (hf j hj).2.2 with heq | ⟨-, hclosed⟩
      · rw [heq]
        exact h.current k hk ((hg k hk).submitted hs) j hj hid
      · exact absurd hs (hclosed k hk hid.symm)
    · exact absurd (hid ▸ h.known k hk) (hnew j' hj').2
  · obtain ⟨k, hk, rfl⟩ := call k' hk'
    rw [(hg k hk).callId, (hg k hk).attempt]
    rw [(hg k hk).callId] at hp
    rcases row j' hj' with ⟨j, hj, rfl⟩ | hj'
    · rw [(hf j hj).1] at hc
      exact h.held j hj ((hf j hj).2.1 hrun) k hk (pointer j hj _ hp) c hc
    · rw [(hnew j' hj').1] at hp
      cases hp

theorem closing_update {p : ProviderCall → Bool} {f : ProviderCall → ProviderCall}
    (hf : ∀ k, (f k).callId = k.callId ∧ (f k).jobId = k.jobId ∧ (f k).attempt = k.attempt ∧ (f k).status ≠ .submitted)
    (k : ProviderCall) : Closing k (if p k then f k else k) := by
  split_ifs
  · exact ⟨(hf k).1, (hf k).2.1, (hf k).2.2.1, Or.inr (hf k).2.2.2⟩
  · exact .refl k

theorem completeCalls_eq_map {now : ℕ} {sel : ProviderCall → Bool} {st : CallStatus} (hst : st ≠ .submitted)
    (calls : List ProviderCall) :
    ∃ g, completeCalls now sel st calls = calls.map g ∧ ∀ k, Closing k (g k) ∧ (sel k = true → (g k).status = st) ∧
      (sel k = false → g k = k) :=
  ⟨fun k => if sel k then { k with status := st, completedAt := k.completedAt.or (some now) } else k, rfl, fun k =>
    ⟨@closing_update sel (fun k => { k with status := st, completedAt := k.completedAt.or (some now) })
      (fun _ => ⟨rfl, rfl, rfl, hst⟩) k, fun h => by simp [h], fun h => by simp [h]⟩⟩

section
variable {env : GatewayEnv} {w : World} {op : Op}

/-- Only retries and recordings change which call a row points to. -/
theorem Move.providerCallId {j j' : Job} (hm : Move env w op j j')
    (hretry : ∀ c k e o a, op ≠ .markRetryable c k e o a) (hrecord : ∀ c k ev, op ≠ .recordProviderCall c k ev) :
    j'.providerCallId = j.providerCallId := by
  cases hm with
  | retry => exact absurd rfl (hretry _ _ _ _ _)
  | recordCall => exact absurd rfl (hrecord _ _ _)
  | _ => rfl

/-- Only a claim makes a row running. -/
theorem Move.running {j j' : Job} (hm : Move env w op j j') (hclaim : ∀ t p k a, op ≠ .claimOne t p k a)
    (hrun : j'.status = .running) : j.status = .running := by
  cases hm with
  | startAttempt => exact absurd rfl (hclaim _ _ _ _)
  | persist o hdone => exact absurd (hdone.symm.trans hrun) (by decide)
  | recordCancelled => exact hrun
  | retry h => exact h
  | recordCall h => exact h
  | _ => cases hrun

theorem Moves.providerCallId {j j' : Job} (hm : Moves env w op j j')
    (hretry : ∀ c k e o a, op ≠ .markRetryable c k e o a) (hrecord : ∀ c k ev, op ≠ .recordProviderCall c k ev) :
    j'.providerCallId = j.providerCallId := by
  induction hm with
  | refl => rfl
  | tail _ h ih => exact (h.providerCallId hretry hrecord).trans ih

theorem Moves.running {j j' : Job} (hm : Moves env w op j j') (hclaim : ∀ t p k a, op ≠ .claimOne t p k a)
    (hrun : j'.status = .running) : j.status = .running := by
  induction hm with
  | refl => exact hrun
  | tail _ h ih => exact ih (h.running hclaim hrun)

end

theorem recordConsent_calls {env : GatewayEnv} {r : Readings} {now : ℕ} {user : String} {input : ConsentInput}
    {db db' : Db} {e : ConsentEvent} (h : recordConsent env r now user input db = .ok (db', e)) :
    db'.providerCalls = db.providerCalls := by
  unfold recordConsent at h
  split at h
  · cases h
  · split at h
    · split_ifs at h
      obtain ⟨rfl, -⟩ := Prod.mk.inj (Except.ok.inj h)
      rfl
    · dsimp only at h
      split at h <;>
      · obtain ⟨rfl, -⟩ := Prod.mk.inj (Except.ok.inj h)
        rfl

/-- The transactions that leave the calls alone, or close some. -/
theorem exec_calls_closing (env : GatewayEnv) (w : World) (op : Op) (hrecord : ∀ c k ev, op ≠ .recordProviderCall c k ev) :
    ∃ g, (exec env w op).db.providerCalls = w.db.providerCalls.map g ∧ ∀ k, Closing k (g k) := by
  have same : ∀ {calls : List ProviderCall}, calls = w.db.providerCalls →
      ∃ g, calls = w.db.providerCalls.map g ∧ ∀ k, Closing k (g k) :=
    fun h => ⟨id, by rw [h, List.map_id], fun k => .refl k⟩
  have update : ∀ {p : ProviderCall → Bool} {f : ProviderCall → ProviderCall},
      (∀ k, (f k).callId = k.callId ∧ (f k).jobId = k.jobId ∧ (f k).attempt = k.attempt ∧ (f k).status ≠ .submitted) →
      ∃ g, Table.update p f w.db.providerCalls = w.db.providerCalls.map g ∧ ∀ k, Closing k (g k) :=
    fun hf => ⟨_, rfl, closing_update hf⟩
  cases op with
  | recordProviderCall c k ev => exact absurd rfl (hrecord c k ev)
  | tick => exact same rfl
  | createJob r user id input =>
    rw [exec]
    split
    · exact same rfl
    · rename_i hc
      refine same ?_
      have hopen : (ensureCreditAccount user w.db).providerCalls = w.db.providerCalls := by
        unfold ensureCreditAccount
        split_ifs <;> rfl
      cases (createJob_outcome hc).2 with
      | replay => exact hopen
      | fixture => exact hopen
      | live =>
        dsimp only
        split_ifs
        · unfold postCredit
          split_ifs <;> exact hopen
        · exact hopen
  | materializeFixture id persisted =>
    rw [exec]
    split_ifs <;> exact same rfl
  | claimOne tasks pick token attemptId =>
    rw [exec]
    cases hcl : claimOne w.now tasks pick token attemptId w.db with
    | mk db c =>
      rcases claimOne_eq hcl with ⟨rfl, rfl | rfl⟩ | ⟨prior, -, -, htake, rfl⟩
      · exact same rfl
      · exact same rfl
      · obtain ⟨_, -, h⟩ := Option.bind_eq_some_iff.mp htake
        obtain rfl := Option.some.inj h
        exact same rfl
  | readAuthority c =>
    rw [exec]
    split_ifs <;> exact same rfl
  | commitSucceeded c o final =>
    rw [exec]
    split_ifs
    · split
      · rename_i db hcs
        unfold commitSucceeded at hcs
        split_ifs at hcs
        · obtain ⟨rfl, -⟩ := Prod.mk.inj hcs
          obtain ⟨g, hg, hclose⟩ := @completeCalls_eq_map w.now
            (fun k => k.jobId = c.id && some k.callId = providerCallId o) .succeeded (by decide) w.db.providerCalls
          exact ⟨g, hg, fun k => (hclose k).1⟩
        · cases (Prod.mk.inj hcs).2
      · exact same rfl
    · exact same rfl
  | markFailed c e code =>
    rw [exec]
    split
    · rename_i db hmf
      unfold markFailed at hmf
      split_ifs at hmf
      · cases (Prod.mk.inj hmf).2
      · obtain ⟨rfl, -⟩ := Prod.mk.inj hmf
        obtain ⟨g, hg, hclose⟩ := @completeCalls_eq_map w.now (fun k => k.jobId = c.id && k.status = .submitted)
          .failed (by decide) w.db.providerCalls
        exact ⟨g, hg, fun k => (hclose k).1⟩
      · cases (Prod.mk.inj hmf).2
    · exact same rfl
  | markRetryable c callId e code after =>
    rw [exec]
    split
    · rename_i db st hmr
      unfold markRetryable at hmr
      split_ifs at hmr
      · cases (Prod.mk.inj hmr).2
      · split at hmr
        · cases (Prod.mk.inj hmr).2
        · obtain ⟨rfl, -⟩ := Prod.mk.inj hmr
          obtain ⟨g, hg, hclose⟩ := @completeCalls_eq_map w.now (fun k => k.jobId = c.id && k.status = .submitted &&
            (k.attempt = c.attempts || some k.callId = callId) && !(decide (code = "provider-recovery-pending")))
            .failed (by decide) w.db.providerCalls
          exact ⟨g, hg, fun k => (hclose k).1⟩
    · exact same rfl
  | recordProviderCancelled jobId callId => exact update fun k => ⟨rfl, rfl, rfl, by simp⟩
  | cancelOwnedJob user jobId =>
    rw [exec]
    split
    · exact same rfl
    · rename_i db row hc
      unfold cancelOwnedJob at hc
      split at hc
      · cases hc
      · split_ifs at hc
        · obtain ⟨rfl, -⟩ := Prod.mk.inj (Except.ok.inj hc)
          exact same rfl
        · obtain ⟨rfl, -⟩ := Prod.mk.inj (Except.ok.inj hc)
          exact update fun k => ⟨rfl, rfl, rfl, by simp⟩
  | recordConsent r user input =>
    rw [exec]
    split
    · exact same rfl
    · rename_i db e hc
      exact same (recordConsent_calls hc)

/-- Only a claim is issued. -/
theorem exec_issued (env : GatewayEnv) (w : World) (op : Op) (hclaim : ∀ t p k a, op ≠ .claimOne t p k a) :
    (exec env w op).issued = w.issued := by
  cases op with
  | claimOne t p k a => exact absurd rfl (hclaim t p k a)
  | tick => rfl
  | recordProviderCall => rfl
  | recordProviderCancelled => rfl
  | commitSucceeded c o final =>
    rw [exec]
    split_ifs
    · split <;> rfl
    · rfl
  | materializeFixture | readAuthority =>
    rw [exec]
    split_ifs <;> rfl
  | _ =>
    rw [exec]
    split <;> rfl

/-- Claims stay issued. -/
theorem mem_issued_exec (env : GatewayEnv) (w : World) (op : Op) {h : ClaimedJob} (hh : h ∈ w.issued) :
    h ∈ (exec env w op).issued := by
  by_cases hclaim : ∃ t p k a, op = .claimOne t p k a
  · obtain ⟨t, p, k, a, rfl⟩ := hclaim
    rw [exec]
    cases hcl : claimOne w.now t p k a w.db with
    | mk db c => exact List.mem_append_right _ hh
  · rwa [exec_issued env w op fun t p k a heq => hclaim ⟨t, p, k, a, heq⟩]

/-- A created row points to no call. -/
theorem CreateOutcome.inserted {env : GatewayEnv} {r : Readings} {now : ℕ} {user id : String} {input : CreateJobInput}
    {db db' : Db} {job : Job} {flag : Bool} (h : CreateOutcome env r now user id input db db' job flag) :
    ∃ new : Option Job, db'.jobs = db.jobs ++ new.toList ∧
      ∀ j ∈ new, j.providerCallId = none ∧ j.id ∉ db.jobs.map Job.id := by
  cases h with
  | replay => exact ⟨none, by simp, by simp⟩
  | fixture hjob hp hfresh =>
    refine ⟨some job, by simp, fun j hj => ?_⟩
    obtain rfl := Option.some.inj hj
    subst hjob
    exact ⟨rfl, hfresh⟩
  | live hjob hp hfresh =>
    refine ⟨some job, ?_, fun j hj => ?_⟩
    · split_ifs
      · rw [postCredit_jobs]
        simp
      · simp
    · obtain rfl := Option.some.inj hj
      subst hjob
      exact ⟨rfl, hfresh⟩

theorem CallsInv.create {issued : List ClaimedJob} {env : GatewayEnv} {w : World} (h : CallsInv issued w.db)
    {r : Readings} {user id : String} {input : CreateJobInput} :
    CallsInv issued (exec env w (.createJob r user id input)).db := by
  obtain ⟨g, hcalls, hg⟩ := exec_calls_closing env w (.createJob r user id input) (by simp)
  have hrow : ∃ new : Option Job, (exec env w (.createJob r user id input)).db.jobs = w.db.jobs ++ new.toList ∧
      ∀ j ∈ new, j.providerCallId = none ∧ j.id ∉ w.db.jobs.map Job.id := by
    rw [exec]
    split
    · exact ⟨none, by simp, by simp⟩
    · rename_i hc
      exact (createJob_outcome hc).2.inserted
  obtain ⟨new, hjobs, hnew⟩ := hrow
  exact h.frame (by rw [hjobs, List.map_id']) hcalls (fun j _ => ⟨rfl, fun hr => hr, Or.inl rfl⟩) (fun k _ => hg k) hnew

/-- A claim hands the pointer on. -/
theorem CallsInv.start {issued : List ClaimedJob} {db db' : Db} (h : CallsInv issued db)
    (hids : (db.jobs.map Job.id).Nodup) {now : ℕ} {token attemptId : String} {prior : Job} (hp : prior ∈ db.jobs)
    (htake : takeClaim now token attemptId prior db = some db') :
    CallsInv (prior.claimed now token attemptId :: issued) db' := by
  have hjobs := takeClaim_jobs htake
  have hcalls : db'.providerCalls = db.providerCalls := by
    obtain ⟨_, -, h⟩ := Option.bind_eq_some_iff.mp htake
    obtain rfl := Option.some.inj h
    rfl
  have row : ∀ j' ∈ db'.jobs, ∃ j ∈ db.jobs, j'.id = j.id ∧ j'.providerCallId = j.providerCallId ∧
      (j.id = prior.id ∧ j = prior ∨ j.id ≠ prior.id ∧ j' = j) := fun j' hj' => by
    rw [hjobs] at hj'
    obtain ⟨j, hj, rfl⟩ := Table.mem_update.mp hj'
    by_cases hid : j.id = prior.id
    · obtain rfl := List.inj_on_of_nodup_map hids hj hp hid
      exact ⟨j, hj, by simp [Job.startAttempt], by simp [Job.startAttempt], Or.inl ⟨rfl, rfl⟩⟩
    · exact ⟨j, hj, by simp [hid], by simp [hid], Or.inr ⟨hid, by simp [hid]⟩⟩
  refine ⟨hcalls ▸ h.keys, fun k hk => ?_, fun j' hj' k hk hpk => ?_, fun k hk hs j' hj' hid => ?_,
    fun j' hj' hrun k hk hpk c hc => ?_⟩
  · have hkeep : ∀ r, (decide (r.id = prior.id)) = true → (Job.startAttempt now token r).id = r.id := fun _ _ => rfl
    rw [hjobs, Table.map_update hkeep]
    exact h.known k (hcalls ▸ hk)
  · obtain ⟨j, hj, hid, hptr, -⟩ := row j' hj'
    rw [hid]
    exact h.pointed j hj k (hcalls ▸ hk) (hptr ▸ hpk)
  · obtain ⟨j, hj, hjid, hptr, -⟩ := row j' hj'
    rw [hptr]
    exact h.current k (hcalls ▸ hk) hs j hj (hjid ▸ hid)
  · obtain ⟨j, hj, hjid, hptr, ⟨-, rfl⟩ | ⟨hne, rfl⟩⟩ := row j' hj'
    · rw [hjid, latestClaim_cons, if_pos (show (j.claimed now token attemptId).id = j.id from rfl)] at hc
      obtain rfl := Option.some.inj hc
      exact Or.inl (hptr.symm.trans hpk)
    · rw [latestClaim_cons, if_neg (show (prior.claimed now token attemptId).id ≠ j'.id from Ne.symm hne)] at hc
      exact h.held j' hj hrun k (hcalls ▸ hk) hpk c hc

/-- Recording a call: the leased row points to it, and it is new. -/
theorem CallsInv.record {w : World} (h : CallsInv w.issued w.db) (hq : QueueInv w) {c : ClaimedJob} (hc : c ∈ w.issued)
    (callId : String) (ev : CallEvidence) :
    CallsInv w.issued (recordProviderCall w.now c callId ev w.db).1 := by
  unfold recordProviderCall
  dsimp only
  split_ifs with hcond
  swap
  · exact h
  obtain ⟨hany, hnew, hptr⟩ := hcond
  obtain ⟨r, hr, hrow⟩ := List.any_eq_true.mp hany
  simp only [Bool.and_eq_true, decide_eq_true_eq, Option.isNone_iff_eq_none] at hrow
  obtain ⟨⟨hl, hmodal⟩, hnone⟩ := hrow
  obtain ⟨hlatest, -, hatts, -⟩ := hq.jobs.honoured hc hr hl
  have hrid := (holdsLease_iff.mp hl).1
  have hfresh : ∀ k ∈ w.db.providerCalls, k.callId ≠ callId := fun k hk => by
    have := List.all_eq_true.mp hnew k hk
    simp only [Bool.and_eq_true, decide_eq_true_eq] at this
    exact this.1
  have hunused : ∀ j ∈ w.db.jobs, j.providerCallId ≠ some callId := fun j hj => by
    simpa using List.all_eq_true.mp hptr j hj
  have hsel : ∀ j ∈ w.db.jobs, (holdsLease w.now c j && decide (j.provider = .modal) && j.providerCallId.isNone) = true →
      j = r := fun j hj hsel => by
    simp only [Bool.and_eq_true] at hsel
    exact List.inj_on_of_nodup_map hq.jobs.ids hj hr ((holdsLease_iff.mp hsel.1.1).1.trans hrid.symm)
  have hselr : (holdsLease w.now c r && decide (r.provider = .modal) && r.providerCallId.isNone) = true := by
    simp [hl, hmodal, hnone]
  constructor
  · rw [List.map_append, List.nodup_append]
    refine ⟨h.keys, by simp, ?_⟩
    rintro a ha b hb rfl
    obtain ⟨k, hk, hka⟩ := List.mem_map.mp ha
    exact hfresh k hk (hka.trans (by simpa using hb))
  · intro k hk
    have hj : ∃ j ∈ w.db.jobs, j.id = k.jobId := by
      rcases List.mem_append.mp hk with hk | hk
      · exact List.mem_map.mp (h.known k hk)
      · rw [List.mem_singleton.mp hk]
        exact ⟨r, hr, hrid⟩
    obtain ⟨j, hj, hid⟩ := hj
    exact List.mem_map.mpr ⟨_, Table.mem_update.mpr ⟨j, hj, rfl⟩, by split_ifs <;> exact hid⟩
  · intro j' hj' k hk hp
    obtain ⟨j, hj, rfl⟩ := Table.mem_update.mp hj'
    by_cases hs : (holdsLease w.now c j && decide (j.provider = .modal) && j.providerCallId.isNone) = true
    · rw [if_pos hs] at hp ⊢
      have hp := Option.some.inj hp
      rcases List.mem_append.mp hk with hk | hk
      · exact absurd hp.symm (hfresh k hk)
      · rw [List.mem_singleton.mp hk, hsel j hj hs]
        exact hrid.symm
    · rw [if_neg hs] at hp ⊢
      rcases List.mem_append.mp hk with hk | hk
      · exact h.pointed j hj k hk hp
      · rw [List.mem_singleton.mp hk] at hp
        exact absurd hp (hunused j hj)
  · intro k hk hst j' hj' hid
    obtain ⟨j, hj, rfl⟩ := Table.mem_update.mp hj'
    by_cases hs : (holdsLease w.now c j && decide (j.provider = .modal) && j.providerCallId.isNone) = true
    · rw [if_pos hs] at hid ⊢
      rcases List.mem_append.mp hk with hk | hk
      · have hcur := h.current k hk hst j hj hid
        rw [hsel j hj hs, hnone] at hcur
        cases hcur
      · rw [List.mem_singleton.mp hk]
    · rw [if_neg hs] at hid ⊢
      rcases List.mem_append.mp hk with hk | hk
      · exact h.current k hk hst j hj hid
      · rw [List.mem_singleton.mp hk] at hid
        obtain rfl := List.inj_on_of_nodup_map hq.jobs.ids hj hr (hid.trans hrid.symm)
        exact absurd hselr hs
  · intro j' hj' hrun k hk hp d hd
    obtain ⟨j, hj, rfl⟩ := Table.mem_update.mp hj'
    by_cases hs : (holdsLease w.now c j && decide (j.provider = .modal) && j.providerCallId.isNone) = true
    · rw [if_pos hs] at hp hd
      have hp := Option.some.inj hp
      rcases List.mem_append.mp hk with hk | hk
      · exact absurd hp.symm (hfresh k hk)
      · have hdc : latestClaim w.issued c.id = some d := by
          rw [← hrid, ← hsel j hj hs]
          exact hd
        rw [hlatest] at hdc
        rw [List.mem_singleton.mp hk, Option.some.inj hdc]
        exact Or.inr rfl
    · rw [if_neg hs] at hp hrun hd
      rcases List.mem_append.mp hk with hk | hk
      · exact h.held j hj hrun k hk hp d hd
      · rw [List.mem_singleton.mp hk] at hp
        exact absurd hp (hunused j hj)

theorem markRetryable_calls {now : ℕ} {c : ClaimedJob} {callId : Option String} {e code : String} {after : Option ℕ}
    {db db' : Db} {st : JobStatus} (h : markRetryable now c callId e code after db = (db', some st)) :
    db'.providerCalls = completeCalls now (fun k => k.jobId = c.id && k.status = .submitted &&
      (k.attempt = c.attempts || some k.callId = callId) && !(decide (code = "provider-recovery-pending"))) .failed
      db.providerCalls := by
  unfold markRetryable at h
  split_ifs at h
  · cases (Prod.mk.inj h).2
  · split at h
    · cases (Prod.mk.inj h).2
    · obtain ⟨rfl, -⟩ := Prod.mk.inj h
      rfl

/-- A retry that takes the pointer away closes the call. -/
theorem CallsInv.retry {w : World} (h : CallsInv w.issued w.db) (hq : QueueInv w) {c : ClaimedJob} (hc : c ∈ w.issued)
    {callId : Option String} {e code : String} {after : Option ℕ} {db' : Db} {st : JobStatus}
    (hknown : c.providerCallId.isSome = true → callId = c.providerCallId)
    (hm : markRetryable w.now c callId e code after w.db = (db', some st)) : CallsInv w.issued db' := by
  obtain ⟨⟨r, hr, hl⟩, hjobs, -⟩ := markRetryable_eq_some hm
  obtain ⟨hlatest, -, -, -⟩ := hq.jobs.honoured hc hr hl
  obtain ⟨g, hg, hclose⟩ := @completeCalls_eq_map w.now (fun k => k.jobId = c.id && k.status = .submitted &&
    (k.attempt = c.attempts || some k.callId = callId) && !(decide (code = "provider-recovery-pending"))) .failed
    (by decide) w.db.providerCalls
  refine @CallsInv.frame _ _ _ h (fun j => if holdsLease w.now c j then
    j.retry w.now (retryDelay c.attempts after) e code else j) none _ (by simpa [Table.update] using hjobs)
    ((markRetryable_calls hm).trans hg) (fun j hj => ?_) (fun k _ => (hclose k).1) (by simp)
  by_cases hlj : holdsLease w.now c j = true
  swap
  · rw [if_neg hlj]
    exact ⟨rfl, fun hrun => hrun, Or.inl rfl⟩
  rw [if_pos hlj]
  obtain ⟨hjid, hrun, -⟩ := holdsLease_iff.mp hlj
  refine ⟨(released_retry hrun).2.1, fun _ => hrun, ?_⟩
  unfold Job.retry
  dsimp only
  by_cases hlt : j.attempts < j.maxAttempts
  swap
  · rw [if_neg hlt]
    exact Or.inl rfl
  rw [if_pos hlt]
  by_cases hcode : code = "provider-recovery-pending"
  · exact Or.inl (by simp [hcode])
  · refine Or.inr ⟨by simp [hcode], fun k hk hkid hst => ?_⟩
    have hsub := (hclose k).1.submitted hst
    have hptr := h.current k hk hsub j hj hkid.symm
    -- the call is of this attempt or was handed over with the claim, so it is among those closed
    have hsel : (some k.callId = callId ∨ k.attempt = c.attempts) := by
      rcases h.held j hj hrun k hk hptr c (hjid ▸ hlatest) with hh | hh
      · exact Or.inl (by rw [hknown (by simp [hh]), hh])
      · exact Or.inr hh
    rw [(hclose k).2.1 (by rcases hsel with hs | hs <;> simp [hkid, hjid, hsub, hcode, hs])] at hst
    cases hst

/-- The worker knows the call it was handed with its claim. -/
def KnowsCall : Op → Prop
  | .markRetryable c callId _ _ _ => c.providerCallId.isSome = true → callId = c.providerCallId
  | _ => True

/-- **Step lemma**: every transaction keeps the invariant of the calls. -/
theorem exec_callsInv (env : GatewayEnv) (w : World) (op : Op) (hq : QueueInv w) (h : CallsInv w.issued w.db)
    (hadm : admissible w op) (hknown : KnowsCall op) : CallsInv (exec env w op).issued (exec env w op).db := by
  -- transactions that change neither leases handed out nor pointers
  have framed : (∀ r u id i, op ≠ .createJob r u id i) → (∀ t p k a, op ≠ .claimOne t p k a) →
      (∀ c k e o a, op ≠ .markRetryable c k e o a) → (∀ c k ev, op ≠ .recordProviderCall c k ev) →
      CallsInv (exec env w op).issued (exec env w op).db := fun hcreate hclaim hretry hrecord => by
    obtain ⟨f, hjobs, hf⟩ := exec_moves env w op hq.jobs.ids hcreate
    obtain ⟨g, hcalls, hg⟩ := exec_calls_closing env w op hrecord
    rw [exec_issued env w op hclaim]
    exact @CallsInv.frame _ _ _ h f none g (by simpa using hjobs) hcalls
      (fun j hj => ⟨(hf j hj).sameRequest.id, (hf j hj).running hclaim, Or.inl ((hf j hj).providerCallId hretry hrecord)⟩)
      (fun k _ => hg k) (by simp)
  cases op with
  | createJob r user id input =>
    rw [exec_issued env w _ (by simp)]
    exact h.create
  | claimOne tasks pick token attemptId =>
    rw [exec]
    cases hcl : claimOne w.now tasks pick token attemptId w.db with
    | mk db c =>
      have hswept : CallsInv w.issued (exhaust w.now tasks w.db) := by
        refine @CallsInv.frame _ _ _ h (fun j => if exhausted w.now tasks j then j.failExhausted w.now else j) none
          (fun k => k) (by simp [exhaust, Table.update]) (by simp [exhaust]) (fun j _ => ?_) (fun k _ => .refl k)
          (by simp)
        split_ifs
        · exact ⟨rfl, fun hr => absurd hr (by simp [Job.failExhausted]), Or.inl rfl⟩
        · exact ⟨rfl, fun hr => hr, Or.inl rfl⟩
      rcases claimOne_eq hcl with ⟨rfl, rfl | rfl⟩ | ⟨prior, hp, -, htake, rfl⟩
      · exact h
      · exact hswept
      · exact hswept.start ((exhaust_jobsStep w.now tasks w.db).ids hq.jobs.ids) hp htake
  | markRetryable c callId e code after =>
    rw [exec]
    split
    · rename_i db st hm
      exact h.retry hq hadm hknown hm
    · exact h
  | recordProviderCall c callId ev => exact h.record hq hadm callId ev
  | _ => exact framed (by simp) (by simp) (by simp) (by simp)

theorem callsInv_empty : CallsInv World.empty.issued World.empty.db := by
  constructor <;> simp [World.empty, Db.empty]

/-! ### Who may touch a call -/

/-- The lease token of the worker that acts. -/
def Op.worker : Op → Option String
  | .claimOne _ _ token _ => some token
  | .readAuthority h | .commitSucceeded h _ _ | .markFailed h _ _ | .markRetryable h _ _ _ _
  | .recordProviderCall h _ _ => some h.leaseToken
  | _ => none

/-- Running under an unexpired lease of another worker. -/
def leasedByOther (now : ℕ) (token : String) (j : Job) : Bool :=
  j.status = .running && (j.leaseExpiresAt.any fun e => now < e) && j.leaseToken ≠ some token

/-- The row is there as it was, and so is the row of the call. -/
def Untouched (db db' : Db) (j : Job) (callId : String) : Prop :=
  j ∈ db'.jobs ∧ (db'.providerCalls.filter fun k => k.callId = callId) = db.providerCalls.filter fun k => k.callId = callId

theorem Untouched.of_eq {db db' : Db} {j : Job} {callId : String} (hj : j ∈ db.jobs) (h : db' = db) :
    Untouched db db' j callId := ⟨h ▸ hj, by rw [h]⟩

theorem leasedByOther_iff {now : ℕ} {token : String} {j : Job} : leasedByOther now token j = true ↔
    j.status = .running ∧ (∃ e, j.leaseExpiresAt = some e ∧ now < e) ∧ j.leaseToken ≠ some token := by
  simp [leasedByOther, Option.any_eq_true, and_assoc]

/-- **A worker does not touch a job that another one holds, nor the call it points to.** -/
theorem exec_untouched (env : GatewayEnv) (w : World) (op : Op) (hq : QueueInv w) (h : CallsInv w.issued w.db)
    {token : String} (hop : op.worker = some token) {j : Job} (hj : j ∈ w.db.jobs)
    (hheld : leasedByOther w.now token j = true) {callId : String} (hptr : j.providerCallId = some callId) :
    Untouched w.db (exec env w op).db j callId := by
  obtain ⟨hrun, ⟨e, he, hlt⟩, hne⟩ := leasedByOther_iff.mp hheld
  have hids := hq.jobs.ids
  -- the holder of a lease under another token holds another job
  have other : ∀ {c : ClaimedJob}, c.leaseToken = token → ∀ r ∈ w.db.jobs, holdsLease w.now c r = true → j.id ≠ c.id := by
    intro c hc r hr hl hid
    obtain ⟨hrid, -, htok, -⟩ := holdsLease_iff.mp hl
    obtain rfl := List.inj_on_of_nodup_map hids hj hr (hid.trans hrid.symm)
    exact hne (hc ▸ htok)
  have notHeld : ∀ {c : ClaimedJob}, c.leaseToken = token → holdsLease w.now c j = false := fun {c} hc => by
    by_contra hl
    exact hne (hc ▸ (holdsLease_iff.mp (by simpa using hl)).2.2.1)
  have calls : ∀ {c : ClaimedJob} {sel : ProviderCall → Bool} {st : CallStatus}, j.id ≠ c.id →
      (∀ k, sel k = true → k.jobId = c.id) →
      ((completeCalls w.now sel st w.db.providerCalls).filter fun k => k.callId = callId) =
        w.db.providerCalls.filter fun k => k.callId = callId := by
    intro c sel st hid hsel
    refine Table.filter_update_eq (fun _ _ _ => rfl) fun k hk hkc => ?_
    have hown := h.pointed j hj k hk (by rw [hptr, of_decide_eq_true hkc])
    by_contra hs
    exact hid (hown.symm.trans (hsel k (by simpa using hs)))
  cases op with
  | claimOne tasks pick tok attemptId =>
    obtain rfl := Option.some.inj hop
    rw [exec]
    cases hcl : claimOne w.now tasks pick tok attemptId w.db with
    | mk db c =>
      have hfresh : leaseExpired w.now j = false := by
        simp [leaseExpired, he]
        omega
      have hswept : Untouched w.db (exhaust w.now tasks w.db) j callId :=
        ⟨Table.mem_update_of_not hj (by simp [exhausted, hfresh]), rfl⟩
      rcases claimOne_eq hcl with ⟨rfl, rfl | rfl⟩ | ⟨prior, hp, hcan, htake, rfl⟩
      · exact .of_eq hj rfl
      · exact hswept
      · have hcalls : db.providerCalls = (exhaust w.now tasks w.db).providerCalls := by
          obtain ⟨_, -, h⟩ := Option.bind_eq_some_iff.mp htake
          obtain rfl := Option.some.inj h
          rfl
        refine ⟨?_, by rw [show (_ : Db).providerCalls = _ from hcalls]; exact hswept.2⟩
        rw [show db.jobs = _ from takeClaim_jobs htake]
        refine Table.mem_update_of_not hswept.1 (decide_eq_false fun hid => ?_)
        obtain rfl := List.inj_on_of_nodup_map ((exhaust_jobsStep w.now tasks w.db).ids hids) hswept.1 hp hid
        simp [claimable, hrun, hfresh] at hcan
  | readAuthority c =>
    rw [exec]
    split_ifs <;> exact .of_eq hj rfl
  | commitSucceeded c o final =>
    have hc := Option.some.inj hop
    rw [exec]
    split_ifs
    · split
      · rename_i db hcs
        obtain ⟨⟨r, hr, hl⟩, hjobs, -⟩ := commitSucceeded_eq_true hcs
        have hid := other hc r hr hl
        refine ⟨?_, ?_⟩
        · rw [show db.jobs = _ from hjobs]
          exact Table.mem_update_of_not (Table.mem_update_of_not hj (notHeld hc)) (by simp [hid])
        · unfold commitSucceeded at hcs
          split_ifs at hcs
          · obtain ⟨rfl, -⟩ := Prod.mk.inj hcs
            exact calls hid fun k hk => by
              simp only [Bool.and_eq_true, decide_eq_true_eq] at hk
              exact hk.1
          · cases (Prod.mk.inj hcs).2
      · exact .of_eq hj rfl
    · exact .of_eq hj rfl
  | markFailed c e' code =>
    have hc := Option.some.inj hop
    rw [exec]
    split
    · rename_i db hmf
      obtain ⟨⟨r, hr, hl⟩, hjobs, -⟩ := markFailed_eq_true hmf
      have hid := other hc r hr hl
      refine ⟨?_, ?_⟩
      · rw [show db.jobs = _ from hjobs]
        exact Table.mem_update_of_not hj (notHeld hc)
      · unfold markFailed at hmf
        split_ifs at hmf
        · cases (Prod.mk.inj hmf).2
        · obtain ⟨rfl, -⟩ := Prod.mk.inj hmf
          exact calls hid fun k hk => by
            simp only [Bool.and_eq_true, decide_eq_true_eq] at hk
            exact hk.1
        · cases (Prod.mk.inj hmf).2
    · exact .of_eq hj rfl
  | markRetryable c k' e' code after =>
    have hc := Option.some.inj hop
    rw [exec]
    split
    · rename_i db st hmr
      obtain ⟨⟨r, hr, hl⟩, hjobs, -⟩ := markRetryable_eq_some hmr
      have hid := other hc r hr hl
      refine ⟨?_, ?_⟩
      · rw [show db.jobs = _ from hjobs]
        exact Table.mem_update_of_not hj (notHeld hc)
      · rw [show db.providerCalls = _ from markRetryable_calls hmr]
        exact calls hid fun k hk => by
          simp only [Bool.and_eq_true, decide_eq_true_eq] at hk
          exact hk.1.1.1
    · exact .of_eq hj rfl
  | recordProviderCall c newId ev =>
    have hc := Option.some.inj hop
    rw [exec]
    unfold recordProviderCall
    dsimp only
    split_ifs with hcond
    · obtain ⟨-, -, hunused⟩ := hcond
      refine ⟨Table.mem_update_of_not hj (by simp [notHeld hc]), ?_⟩
      have hne' : newId ≠ callId := fun heq => by
        have := List.all_eq_true.mp hunused j hj
        simp [hptr, heq] at this
      rw [List.filter_append]
      simp [hne']
    · exact .of_eq hj rfl
  | _ => cases hop

/-! ### Calls that nobody else holds -/

/-- No other worker holds a job that points to the call. -/
def Unheld (w : World) (token callId : String) : Prop :=
  ∀ j ∈ w.db.jobs, leasedByOther w.now token j = true → j.providerCallId ≠ some callId

section
variable {env : GatewayEnv} {w : World} {op : Op}

/-- Apart from claims and recordings a row that is running afterwards had its lease and its pointer before. -/
theorem Move.leased {j j' : Job} (hm : Move env w op j j') (hclaim : ∀ t p k a, op ≠ .claimOne t p k a)
    (hrecord : ∀ c k ev, op ≠ .recordProviderCall c k ev) (hrun : j'.status = .running) :
    j.status = .running ∧ j.leaseToken = j'.leaseToken ∧ j.leaseExpiresAt = j'.leaseExpiresAt ∧
      j.providerCallId = j'.providerCallId := by
  cases hm with
  | startAttempt => exact absurd rfl (hclaim _ _ _ _)
  | persist o hdone => exact absurd (hdone.symm.trans hrun) (by decide)
  | recordCancelled => exact ⟨hrun, rfl, rfl, rfl⟩
  | recordCall => exact absurd rfl (hrecord _ _ _)
  | retry h =>
    rw [Job.retry] at hrun
    split_ifs at hrun
  | _ => cases hrun

theorem Moves.leased {j j' : Job} (hm : Moves env w op j j') (hclaim : ∀ t p k a, op ≠ .claimOne t p k a)
    (hrecord : ∀ c k ev, op ≠ .recordProviderCall c k ev) (hrun : j'.status = .running) :
    j.status = .running ∧ j.leaseToken = j'.leaseToken ∧ j.leaseExpiresAt = j'.leaseExpiresAt ∧
      j.providerCallId = j'.providerCallId := by
  induction hm with
  | refl => exact ⟨hrun, rfl, rfl, rfl⟩
  | tail _ h ih =>
    obtain ⟨hrun', htoken, hexpires, hptr⟩ := h.leased hclaim hrecord hrun
    obtain ⟨hrun'', htoken', hexpires', hptr'⟩ := ih hrun'
    exact ⟨hrun'', htoken'.trans htoken, hexpires'.trans hexpires, hptr'.trans hptr⟩

/-- Leases only run out. -/
theorem leasedByOther_of_le {now now' : ℕ} (hle : now ≤ now') {token : String} {j : Job}
    (h : leasedByOther now' token j = true) : leasedByOther now token j = true := by
  obtain ⟨hrun, ⟨e, he, hlt⟩, hne⟩ := leasedByOther_iff.mp h
  exact leasedByOther_iff.mpr ⟨hrun, ⟨e, he, hle.trans_lt hlt⟩, hne⟩

/-- The job that is claimed is the one that the database locked. -/
theorem claimOne_pick {now : ℕ} {tasks : List JobKind} {pick : Option String} {token attemptId : String} {db db' : Db}
    {c : ClaimedJob} (h : claimOne now tasks pick token attemptId db = (db', some c)) : pick = some c.id := by
  unfold claimOne at h
  split_ifs at h
  · cases (Prod.mk.inj h).2
  · dsimp only at h
    split at h
    · cases (Prod.mk.inj h).2
    · rename_i prior hpick
      obtain ⟨id, hid, hfind⟩ := Option.bind_eq_some_iff.mp hpick
      split at h
      · cases (Prod.mk.inj h).2
      · obtain rfl := Option.some.inj (Prod.mk.inj h).2
        exact hid.trans (congrArg some (Table.find_some hfind).2.symm)

variable (env)

/-- A claim leaves a call unheld that the claimed job does not point to. -/
theorem Unheld.claim {token callId : String} (h : Unheld w token callId) {tasks : List JobKind} {pick : Option String}
    {tok attemptId : String} (hpick : ∀ j ∈ w.db.jobs, pick = some j.id → j.providerCallId ≠ some callId) :
    Unheld (exec env w (.claimOne tasks pick tok attemptId)) token callId := by
  rw [exec]
  cases hcl : claimOne w.now tasks pick tok attemptId w.db with
  | mk db c =>
    have hswept : ∀ j ∈ (exhaust w.now tasks w.db).jobs, ∃ j₀ ∈ w.db.jobs, j.id = j₀.id ∧
        j.providerCallId = j₀.providerCallId ∧ (j.status = .running → j = j₀) := fun j hj => by
      obtain ⟨j₀, hj₀, rfl⟩ := Table.mem_update.mp hj
      refine ⟨j₀, hj₀, ?_⟩
      split_ifs
      · exact ⟨rfl, rfl, fun hrun => by cases hrun⟩
      · exact ⟨rfl, rfl, fun _ => rfl⟩
    have hkeep : ∀ j ∈ (exhaust w.now tasks w.db).jobs, leasedByOther w.now token j = true →
        j.providerCallId ≠ some callId := fun j hj hheld => by
      obtain ⟨j₀, hj₀, -, -, hsame⟩ := hswept j hj
      obtain rfl := hsame (leasedByOther_iff.mp hheld).1
      exact h j hj₀ hheld
    rcases claimOne_eq hcl with ⟨rfl, rfl | rfl⟩ | ⟨prior, hp, -, htake, rfl⟩
    · exact h
    · exact hkeep
    · intro j' hj' hheld
      have hjobs : j' ∈ Table.update (fun j => j.id = prior.id) (Job.startAttempt w.now tok)
        (exhaust w.now tasks w.db).jobs := takeClaim_jobs htake ▸ hj'
      obtain ⟨j, hj, rfl⟩ := Table.mem_update.mp hjobs
      by_cases hid : j.id = prior.id
      · obtain ⟨j₀, hj₀, hid₀, hptr, -⟩ := hswept j hj
        have hpicked : pick = some j₀.id := (claimOne_pick hcl).trans (congrArg some (hid.symm.trans hid₀))
        rw [if_pos (decide_eq_true hid)]
        exact hptr ▸ hpick j₀ hj₀ hpicked
      · rw [if_neg (by simpa using hid)] at hheld ⊢
        exact hkeep j hj hheld

/-- The clock does not go back. -/
theorem le_now_exec (w : World) (op : Op) : w.now ≤ (exec env w op).now := by
  cases op with
  | tick elapsed => exact Nat.le_add_right _ _
  | claimOne | recordProviderCall | recordProviderCancelled => exact le_rfl
  | materializeFixture | readAuthority =>
    rw [exec]
    split_ifs <;> exact le_rfl
  | commitSucceeded =>
    rw [exec]
    split_ifs
    · split <;> exact le_rfl
    · exact le_rfl
  | _ =>
    rw [exec]
    split <;> exact le_rfl

/-- A transaction adds at most rows that point to no call. -/
theorem exec_rows (hids : (w.db.jobs.map Job.id).Nodup) {j' : Job} (hj' : j' ∈ (exec env w op).db.jobs) :
    (∃ j ∈ w.db.jobs, Moves env w op j j') ∨ j'.providerCallId = none := by
  by_cases hcreate : ∃ r user id input, op = .createJob r user id input
  · obtain ⟨r, user, id, input, rfl⟩ := hcreate
    rw [exec] at hj'
    split at hj'
    · exact .inl ⟨j', hj', .refl⟩
    · rename_i hc
      obtain ⟨new, hjobs, hnew⟩ := (createJob_outcome hc).2.inserted
      rcases List.mem_append.mp (hjobs ▸ hj') with hj' | hj'
      · exact .inl ⟨j', hj', .refl⟩
      · exact .inr (hnew j' (by simpa using hj')).1
  · exact .inl ((exec_moves env w op hids fun r user id input heq => hcreate ⟨r, user, id, input, heq⟩).origin hj')

/-- Apart from claims and recordings no transaction hands a call to a worker. -/
theorem Unheld.frame {token callId : String} (h : Unheld w token callId) (hids : (w.db.jobs.map Job.id).Nodup)
    (hclaim : ∀ t p k a, op ≠ .claimOne t p k a) (hrecord : ∀ c k ev, op ≠ .recordProviderCall c k ev) :
    Unheld (exec env w op) token callId := by
  intro j' hj' hheld
  rcases exec_rows env hids hj' with ⟨j, hj, hm⟩ | hnone
  · obtain ⟨hrun, ⟨e, he, hlt⟩, hne⟩ := leasedByOther_iff.mp (leasedByOther_of_le (le_now_exec env w op) hheld)
    obtain ⟨hrun', htoken, hexpires, hptr⟩ := hm.leased hclaim hrecord hrun
    rw [← hptr]
    exact h j hj (leasedByOther_iff.mpr ⟨hrun', ⟨e, hexpires.trans he, hlt⟩, htoken ▸ hne⟩)
  · rw [hnone]
    simp

/-- A recording of another call changes nothing for this one. -/
theorem Unheld.record {token callId other : String} (h : Unheld w token callId) (hne : other ≠ callId) (c : ClaimedJob)
    (ev : CallEvidence) : Unheld (exec env w (.recordProviderCall c other ev)) token callId := by
  unfold exec recordProviderCall
  dsimp only
  split_ifs
  · intro j' hj' hheld
    obtain ⟨j, hj, rfl⟩ := Table.mem_update.mp hj'
    split_ifs at hheld ⊢
    · exact fun heq => hne (Option.some.inj heq)
    · exact h j hj hheld
  · exact h

/-- A worker that records a call of its own holds the only job that points to it. -/
theorem unheld_recorded {callId : String} (hunused : ∀ j ∈ w.db.jobs, j.providerCallId ≠ some callId) (c : ClaimedJob)
    (ev : CallEvidence) : Unheld (exec env w (.recordProviderCall c callId ev)) c.leaseToken callId := by
  unfold exec recordProviderCall
  dsimp only
  split_ifs
  · intro j' hj' hheld
    obtain ⟨j, hj, rfl⟩ := Table.mem_update.mp hj'
    split_ifs at hheld ⊢ with hrow
    · simp only [Bool.and_eq_true] at hrow
      exact absurd (holdsLease_iff.mp hrow.1.1).2.2.1 (leasedByOther_iff.mp hheld).2.2
    · exact hunused j hj
  · exact fun j hj _ => hunused j hj

/-! ### Recorded calls -/

/-- The ids of the recorded calls. -/
def Db.callIds (db : Db) : List String := db.providerCalls.map ProviderCall.callId

/-- Every call that a job points to or that a claim carries has its row. -/
structure Recorded (w : World) : Prop where
  pointed : ∀ j ∈ w.db.jobs, ∀ c, j.providerCallId = some c → c ∈ w.db.callIds
  carried : ∀ h ∈ w.issued, ∀ c, h.providerCallId = some c → c ∈ w.db.callIds

/-- Only recordings add calls. -/
theorem callIds_exec (w : World) (hrecord : ∀ c k ev, op ≠ .recordProviderCall c k ev) :
    (exec env w op).db.callIds = w.db.callIds := by
  obtain ⟨g, hcalls, hg⟩ := exec_calls_closing env w op hrecord
  rw [Db.callIds, hcalls, List.map_map]
  exact List.map_congr_left fun k _ => (hg k).callId

theorem callIds_record (w : World) (c : ClaimedJob) (callId : String) (ev : CallEvidence) :
    ∀ k, k ∈ (exec env w (.recordProviderCall c callId ev)).db.callIds → k ∈ w.db.callIds ∨ k = callId := by
  intro k hk
  unfold exec recordProviderCall at hk
  dsimp only at hk
  split_ifs at hk
  · simpa [Db.callIds] using hk
  · exact .inl hk

/-- A change of a row keeps its pointer or takes it away, unless it records a call. -/
theorem Move.pointer {j j' : Job} (hm : Move env w op j j') (hrecord : ∀ c k ev, op ≠ .recordProviderCall c k ev) :
    j'.providerCallId = j.providerCallId ∨ j'.providerCallId = none := by
  cases hm with
  | recordCall => exact absurd rfl (hrecord _ _ _)
  | retry =>
    rw [Job.retry]
    split_ifs
    · exact .inl rfl
    · exact .inr rfl
    · exact .inl rfl
    · exact .inl rfl
  | _ => exact .inl rfl

theorem Moves.pointer {j j' : Job} (hm : Moves env w op j j') (hrecord : ∀ c k ev, op ≠ .recordProviderCall c k ev) :
    j'.providerCallId = j.providerCallId ∨ j'.providerCallId = none := by
  induction hm with
  | refl => exact .inl rfl
  | tail _ h ih =>
    rcases h.pointer env hrecord with heq | hnone
    · exact heq ▸ ih
    · exact .inr hnone

/-- **Step lemma**: no transaction leaves a pointer without its row. -/
theorem Recorded.exec (h : Recorded w) (hids : (w.db.jobs.map Job.id).Nodup) : Recorded (exec env w op) := by
  by_cases hrec : ∃ c k ev, op = .recordProviderCall c k ev
  · obtain ⟨c, k, ev, rfl⟩ := hrec
    unfold Queue.exec recordProviderCall
    dsimp only
    split_ifs
    · have hold : ∀ k', k' ∈ w.db.callIds → k' ∈ w.db.callIds ++ [k] := fun k' hk' => List.mem_append_left _ hk'
      constructor
      · intro j' hj' c' hc'
        rw [Db.callIds, List.map_append]
        obtain ⟨j, hj, rfl⟩ := Table.mem_update.mp hj'
        split_ifs at hc'
        · obtain rfl := Option.some.inj hc'
          exact List.mem_append_right _ (List.mem_singleton_self k)
        · exact hold _ (h.pointed j hj c' hc')
      · intro d hd c' hc'
        rw [Db.callIds, List.map_append]
        exact hold _ (h.carried d hd c' hc')
    · exact h
  · have hrecord : ∀ c k ev, op ≠ .recordProviderCall c k ev := fun c k ev heq => hrec ⟨c, k, ev, heq⟩
    have hpointed : ∀ j ∈ (Queue.exec env w op).db.jobs, ∀ c, j.providerCallId = some c → c ∈ w.db.callIds := by
      intro j' hj' c hc
      rcases exec_rows env hids hj' with ⟨j, hj, hm⟩ | hnone
      · rcases hm.pointer env hrecord with heq | hnone
        · exact h.pointed j hj c (heq ▸ hc)
        · rw [hnone] at hc
          cases hc
      · rw [hnone] at hc
        cases hc
    refine ⟨callIds_exec env w hrecord ▸ hpointed, callIds_exec env w hrecord ▸ fun d hd c hc => ?_⟩
    by_cases hclaim : ∃ t p k a, op = .claimOne t p k a
    · obtain ⟨t, p, k, a, rfl⟩ := hclaim
      rw [Queue.exec] at hd
      cases hcl : claimOne w.now t p k a w.db with
      | mk db claim =>
        rw [hcl] at hd
        rcases claimOne_eq hcl with ⟨rfl, -⟩ | ⟨prior, hp, -, -, rfl⟩
        · exact h.carried d hd c hc
        · rcases List.mem_append.mp hd with hd | hd
          · -- the claim carries the pointer of its row
            obtain rfl : d = prior.claimed w.now k a := by simpa using hd
            obtain ⟨j, hj, rfl⟩ := Table.mem_update.mp hp
            refine h.pointed j hj c ?_
            split_ifs at hc <;> exact hc
          · exact h.carried d hd c hc
    · rw [exec_issued env w op fun t p k a heq => hclaim ⟨t, p, k, a, heq⟩] at hd
      exact h.carried d hd c hc

end

end Forge.Queue
