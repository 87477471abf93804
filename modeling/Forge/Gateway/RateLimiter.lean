import Mathlib.Data.Rat.Floor
import Mathlib.Data.Finset.Card
import Mathlib.Tactic.Linarith
import Mathlib.Tactic.NormNum
import Forge.Data.Insertion
import Forge.Data.Run

/-!
# The rate limiter

`InMemoryRateLimiter` counts the calls of a class and an identity in buckets that are renewed when their window is
over. At most `maxBuckets` of them are stored: when there are more, the expired ones are deleted, and then the ones
stored first. Times are rational numbers of milliseconds, and the clock is what the calls say it is.

**`rateLimiter_isolated`**: the decisions for an identity are those of the run without the other identities, and at
most `limit` of its calls are accepted in a window, if the cap never deletes its bucket while it still counts; so it
is if at no time more than `maxBuckets` identities have called within a window.
-/

namespace Forge.Gateway

open Assoc (get keys)

/-! ### The policy -/

/-- `RateLimitClass` -/
inductive RateLimitClass where
  | auth
  | generation
  | job
  | object
  | publicSurface
deriving DecidableEq

def RateLimitClass.text : RateLimitClass → String
  | auth => "auth"
  | generation => "generation"
  | job => "job"
  | object => "object"
  | publicSurface => "public"

/-- The classes, in the order of the limits of a policy. -/
def RateLimitClass.all : List RateLimitClass := [auth, generation, job, object, publicSurface]

theorem RateLimitClass.mem_all (kind : RateLimitClass) : kind ∈ all := by
  cases kind <;> decide

structure RateLimitPolicy where
  windowMs : ℚ
  limits : RateLimitClass → ℚ

def invalidLimit (limit : ℚ) : Bool := !limit.isInt || limit < 1 || 1000000 < limit

/-- What the constructor checks. -/
structure RateLimitPolicy.Valid (policy : RateLimitPolicy) : Prop where
  le_windowMs : 1000 ≤ policy.windowMs
  windowMs_le : policy.windowMs ≤ 86400000
  limits : ∀ kind, invalidLimit (policy.limits kind) = false

structure InMemoryRateLimiter where
  policy : RateLimitPolicy
  maxBuckets : ℕ
  valid : policy.Valid

/-- The constructor. -/
def InMemoryRateLimiter.create (policy : RateLimitPolicy) (maxBuckets : ℕ) : Except String InMemoryRateLimiter :=
  if hw : policy.windowMs < 1000 ∨ 86400000 < policy.windowMs then
    .error "rate-limit window must be between 1 second and 24 hours"
  else match hl : RateLimitClass.all.find? fun kind => invalidLimit (policy.limits kind) with
    | some kind => .error s!"invalid {kind.text} rate limit"
    | none => .ok
      { policy, maxBuckets
        valid :=
          { le_windowMs := not_lt.mp (not_or.mp hw).1
            windowMs_le := not_lt.mp (not_or.mp hw).2
            limits := fun kind => by simpa using List.find?_eq_none.mp hl kind kind.mem_all } }

/-- The constructor makes a limiter of every valid policy, and of no other. -/
theorem InMemoryRateLimiter.create_isOk_iff {policy : RateLimitPolicy} {maxBuckets : ℕ} :
    (∃ L, create policy maxBuckets = .ok L) ↔ policy.Valid := by
  constructor
  · rintro ⟨L, h⟩
    have hpolicy : L.policy = policy := by
      rw [create] at h
      split at h
      · cases h
      · split at h
        · cases h
        · cases h
          rfl
    exact hpolicy ▸ L.valid
  · intro hv
    rw [create, dif_neg (not_or.mpr ⟨not_lt.mpr hv.le_windowMs, not_lt.mpr hv.windowMs_le⟩)]
    split
    · rename_i kind hl
      have hkind := List.find?_some hl
      rw [hv.limits kind] at hkind
      cases hkind
    · exact ⟨_, rfl⟩

/-! ### The buckets -/

structure RateBucket where
  count : ℕ
  resetsAt : ℚ
deriving DecidableEq

/-- The stored buckets, in the order in which they were first stored. -/
abbrev Buckets : Type := List (String × RateBucket)

/-- One call of `consume`, with the time it reads from the clock. -/
structure Call where
  kind : RateLimitClass
  identity : String
  now : ℚ
deriving DecidableEq

structure Allowance where
  limit : ℚ
  remaining : ℚ
  retryAfterSeconds : ℤ
deriving DecidableEq

/-- The error of a refused call. -/
structure RateLimitError extends Allowance where
  message : String
  statusCode : ℕ
deriving DecidableEq

abbrev Decision : Type := Except RateLimitError Allowance

/-- The bucket of a call before the call is counted: a missing or expired one is made anew. -/
def renewed (windowMs now : ℚ) : Option RateBucket → RateBucket
  | none => ⟨0, now + windowMs⟩
  | some current => if current.resetsAt ≤ now then ⟨0, now + windowMs⟩ else current

def RateBucket.counted (bucket : RateBucket) : RateBucket := { bucket with count := bucket.count + 1 }

/-- The cap: the expired buckets are deleted, and then the ones stored first. -/
def evict (maxBuckets : ℕ) (now : ℚ) (buckets : Buckets) : Buckets :=
  if maxBuckets < buckets.length then
    Insertion.dropOldest maxBuckets (buckets.filter fun e => !decide (e.2.resetsAt ≤ now))
  else buckets

/-- The answer to a call, from the bucket it was counted in. -/
def answer (limit : ℚ) (bucket : RateBucket) (now : ℚ) : Decision :=
  let retryAfterSeconds := max 1 ⌈(bucket.resetsAt - now) / 1000⌉
  if limit < bucket.count then
    .error { message := "rate limit exceeded", statusCode := 429, limit, remaining := 0, retryAfterSeconds }
  else .ok { limit, remaining := max 0 (limit - bucket.count), retryAfterSeconds }

section

variable (secretFingerprint : String → String) (L : InMemoryRateLimiter)

def bucketKey (kind : RateLimitClass) (identity : String) : String :=
  kind.text ++ ":" ++ secretFingerprint identity

def Call.key (c : Call) : String := bucketKey secretFingerprint c.kind c.identity

namespace InMemoryRateLimiter

/-- The bucket of a call, with the call counted. -/
def bucket (buckets : Buckets) (c : Call) : RateBucket :=
  (renewed L.policy.windowMs c.now (get (c.key secretFingerprint) buckets)).counted

/-- The buckets with that of the call, before the cap is applied. -/
def stored (buckets : Buckets) (c : Call) : Buckets :=
  Insertion.set (c.key secretFingerprint) (L.bucket secretFingerprint buckets c) buckets

/-- `consume` -/
def consume (buckets : Buckets) (c : Call) : Decision × Buckets :=
  (answer (L.policy.limits c.kind) (L.bucket secretFingerprint buckets c) c.now,
    evict L.maxBuckets c.now (L.stored secretFingerprint buckets c))

/-- The buckets after a call. -/
def step (buckets : Buckets) (c : Call) : Buckets := (L.consume secretFingerprint buckets c).2

/-- The calls of a run with the decisions they get. -/
def trace : Buckets → List Call → List (Call × Decision)
  | _, [] => []
  | buckets, c :: calls =>
    (c, (L.consume secretFingerprint buckets c).1) :: trace (L.step secretFingerprint buckets c) calls

/-! ### What the limiter promises -/

/-- The calls of one class and identity. -/
def isOf (kind : RateLimitClass) (identity : String) (c : Call) : Bool := c.kind = kind && c.identity = identity

/-- After the call, the cap deletes the bucket of this class and identity, which still counts. -/
def Loses (kind : RateLimitClass) (identity : String) (buckets : Buckets) (c : Call) : Prop :=
  ∃ b, get (bucketKey secretFingerprint kind identity) (L.stored secretFingerprint buckets c) = some b ∧
    c.now < b.resetsAt ∧
    get (bucketKey secretFingerprint kind identity) (L.step secretFingerprint buckets c) = none

/-- A run from `buckets` whose cap never deletes the bucket of this class and identity while it counts. -/
def Undisturbed (kind : RateLimitClass) (identity : String) (buckets : Buckets) (calls : List Call) : Prop :=
  EachStep (L.step secretFingerprint) (fun buckets c => ¬ L.Loses secretFingerprint kind identity buckets c) buckets
    calls

/-- The call finds no bucket that still counts, so that a window begins with it. -/
def Opens (buckets : Buckets) (c : Call) : Prop :=
  ∀ b, get (c.key secretFingerprint) buckets = some b → b.resetsAt ≤ c.now

/-- How many calls of this class and identity a run accepts. -/
def accepted (kind : RateLimitClass) (identity : String) (buckets : Buckets) (calls : List Call) : ℕ :=
  (L.trace secretFingerprint buckets calls).countP fun e => isOf kind identity e.1 && e.2.isOk

/-- The classes and identities of the calls whose window, had it begun with them, still goes on at a time. -/
def callers (calls : List Call) (now : ℚ) : Finset (RateLimitClass × String) :=
  ((calls.filter fun d => decide (now < d.now + L.policy.windowMs)).map fun d => (d.kind, d.identity)).toFinset

/-- What holds of a run. -/
structure Isolated (calls : List Call) : Prop where
  bounded : ∀ buckets ∈ calls.scanl (L.step secretFingerprint) [], buckets.length ≤ L.maxBuckets
  /-- The decisions are those of the run without the calls of others. -/
  alone : ∀ kind identity, L.Undisturbed secretFingerprint kind identity [] calls →
    (L.trace secretFingerprint [] calls).filter (fun e => isOf kind identity e.1) =
      L.trace secretFingerprint [] (calls.filter (isOf kind identity))
  /-- At most `limit` calls are accepted from the one that opens a window to its end. -/
  window : ∀ kind identity, L.Undisturbed secretFingerprint kind identity [] calls →
    ∀ before c inside after, calls = before ++ (c :: inside ++ after) → isOf kind identity c = true →
      Opens secretFingerprint (before.foldl (L.step secretFingerprint) []) c →
      (∀ d ∈ inside, d.now < c.now + L.policy.windowMs) →
      (L.accepted secretFingerprint kind identity (before.foldl (L.step secretFingerprint) []) (c :: inside) : ℚ) ≤
        L.policy.limits kind
  /-- The cap deletes no bucket that counts if at most `maxBuckets` have called within a window. -/
  calm : (∀ before c after, calls = before ++ c :: after → (L.callers (before ++ [c]) c.now).card ≤ L.maxBuckets) →
    ∀ kind identity, L.Undisturbed secretFingerprint kind identity [] calls

/-! ### One call -/

variable {secretFingerprint} {L}

/-- What remains of some buckets at a time. -/
def live (now : ℚ) (current : Option RateBucket) : Option RateBucket :=
  current.filter fun b => !decide (b.resetsAt ≤ now)

theorem live_eq_some {now : ℚ} {current : Option RateBucket} {b : RateBucket} :
    live now current = some b ↔ current = some b ∧ now < b.resetsAt := by
  rw [live, Option.filter_eq_some_iff, Bool.not_eq_true', decide_eq_false_iff_not, not_le]

theorem live_live {now later : ℚ} (h : now ≤ later) (current : Option RateBucket) :
    live later (live now current) = live later current := by
  ext b
  simp only [live_eq_some]
  constructor
  · rintro ⟨⟨rfl, -⟩, hb⟩
    exact ⟨rfl, hb⟩
  · rintro ⟨rfl, hb⟩
    exact ⟨⟨rfl, h.trans_lt hb⟩, hb⟩

/-- Expired buckets do not matter. -/
theorem renewed_live (windowMs now : ℚ) (current : Option RateBucket) :
    renewed windowMs now (live now current) = renewed windowMs now current := by
  cases current with
  | none => rfl
  | some b =>
    by_cases hb : b.resetsAt ≤ now
    · rw [renewed, if_pos hb, live, Option.filter_some, if_neg (by simpa using hb), renewed]
    · rw [live, Option.filter_some, if_pos (by simpa using hb)]

theorem evict_sublist (maxBuckets : ℕ) (now : ℚ) (buckets : Buckets) :
    (evict maxBuckets now buckets).Sublist buckets := by
  rw [evict]
  split_ifs
  · exact (Insertion.dropOldest_suffix _ _).sublist.trans List.filter_sublist
  · exact List.Sublist.refl _

theorem length_evict_le (maxBuckets : ℕ) (now : ℚ) (buckets : Buckets) :
    (evict maxBuckets now buckets).length ≤ maxBuckets := by
  rw [evict]
  split_ifs with h
  · exact Insertion.length_dropOldest_le _ _
  · exact not_lt.mp h

theorem evict_eq_self {maxBuckets : ℕ} {now : ℚ} {buckets : Buckets} (h : buckets.length ≤ maxBuckets) :
    evict maxBuckets now buckets = buckets :=
  if_neg (not_lt.mpr h)

/-- A bucket that counts is only deleted when more than `maxBuckets` count. -/
theorem get_evict {maxBuckets : ℕ} {now : ℚ} {buckets : Buckets} (hn : (keys buckets).Nodup)
    (h : (buckets.filter fun e => !decide (e.2.resetsAt ≤ now)).length ≤ maxBuckets) {key : String} {b : RateBucket}
    (hget : get key buckets = some b) (hb : now < b.resetsAt) : get key (evict maxBuckets now buckets) = some b := by
  rw [evict]
  split_ifs
  · rw [Insertion.dropOldest_eq_self h]
    have hmem : (key, b) ∈ buckets.filter fun e => !decide (e.2.resetsAt ≤ now) :=
      List.mem_filter.mpr ⟨Assoc.mem_of_get hget, by simpa using hb⟩
    exact Assoc.get_of_mem (Insertion.nodup_keys_of_sublist List.filter_sublist hn) hmem
  · exact hget

theorem nodup_keys_stored {buckets : Buckets} (h : (keys buckets).Nodup) (c : Call) :
    (keys (L.stored secretFingerprint buckets c)).Nodup :=
  Insertion.nodup_keys_set h _ _

theorem nodup_keys_step {buckets : Buckets} (h : (keys buckets).Nodup) (c : Call) :
    (keys (L.step secretFingerprint buckets c)).Nodup :=
  Insertion.nodup_keys_of_sublist (evict_sublist _ _ _) (nodup_keys_stored h c)

/-- A call that does not delete a bucket that counts leaves what counts of it. -/
theorem live_get_step {kind : RateLimitClass} {identity : String} {buckets : Buckets} {c : Call}
    (hn : (keys buckets).Nodup) (h : ¬ L.Loses secretFingerprint kind identity buckets c) :
    live c.now (get (bucketKey secretFingerprint kind identity) (L.step secretFingerprint buckets c)) =
      live c.now (get (bucketKey secretFingerprint kind identity) (L.stored secretFingerprint buckets c)) := by
  rcases Insertion.get_of_sublist (nodup_keys_stored (L := L) hn c)
    (evict_sublist L.maxBuckets c.now (L.stored secretFingerprint buckets c))
    (bucketKey secretFingerprint kind identity) with hnone | hsame
  · -- deleted, so that it had expired
    ext b
    simp only [live_eq_some]
    constructor
    · rintro ⟨hget, -⟩
      exact absurd (hnone.symm.trans hget) (by simp)
    · rintro ⟨hget, hb⟩
      exact absurd ⟨b, hget, hb, hnone⟩ h
  · exact congrArg (live c.now) hsame

/-! ### The run without the others -/

omit L in
theorem key_of_isOf {kind : RateLimitClass} {identity : String} {c : Call} (h : isOf kind identity c = true) :
    c.key secretFingerprint = bucketKey secretFingerprint kind identity := by
  rw [isOf, Bool.and_eq_true, decide_eq_true_eq, decide_eq_true_eq] at h
  rw [Call.key, h.1, h.2]

/-- A run and the run of one identity alone, at a time: they agree on what counts of its bucket. -/
structure Agree (key : String) (now : ℚ) (buckets own : Buckets) : Prop where
  nodup : (keys buckets).Nodup
  same : live now (get key buckets) = live now (get key own)
  only : own = [] ∨ ∃ b, own = [(key, b)]

variable {key : String} {now : ℚ} {buckets own : Buckets} {c : Call} {kind : RateLimitClass} {identity : String}

theorem Agree.bucket_eq (h : Agree key now buckets own) (hnow : now ≤ c.now) (hkey : c.key secretFingerprint = key) :
    L.bucket secretFingerprint buckets c = L.bucket secretFingerprint own c := by
  have hlive : live c.now (get key buckets) = live c.now (get key own) := by
    rw [← live_live hnow (get key buckets), h.same, live_live hnow]
  rw [bucket, bucket, hkey, ← renewed_live _ _ (get key buckets), hlive, renewed_live]

/-- A call of the identity itself. -/
theorem Agree.step_own (h : Agree (bucketKey secretFingerprint kind identity) now buckets own) (hmax : 1 ≤ L.maxBuckets)
    (hnow : now ≤ c.now) (hc : isOf kind identity c = true)
    (hkept : ¬ L.Loses secretFingerprint kind identity buckets c) :
    Agree (bucketKey secretFingerprint kind identity) c.now (L.step secretFingerprint buckets c)
      (L.step secretFingerprint own c) := by
  have hkey : c.key secretFingerprint = bucketKey secretFingerprint kind identity := key_of_isOf hc
  have hown : L.step secretFingerprint own c =
      [(bucketKey secretFingerprint kind identity, L.bucket secretFingerprint own c)] := by
    have hstored : L.stored secretFingerprint own c =
        [(bucketKey secretFingerprint kind identity, L.bucket secretFingerprint own c)] := by
      rw [stored, hkey]
      rcases h.only with rfl | ⟨b, rfl⟩
      · rfl
      · exact if_pos rfl
    rw [step, consume, hstored]
    exact evict_eq_self hmax
  refine ⟨nodup_keys_step h.nodup c, ?_, Or.inr ⟨_, hown⟩⟩
  rw [live_get_step h.nodup hkept, hown, stored, Insertion.get_set, if_pos hkey.symm, Assoc.get_cons, if_pos rfl,
    h.bucket_eq hnow hkey]

/-- A call of another identity. -/
theorem Agree.step_other (h : Agree (bucketKey secretFingerprint kind identity) now buckets own) (hnow : now ≤ c.now)
    (hc : bucketKey secretFingerprint kind identity ≠ c.key secretFingerprint)
    (hkept : ¬ L.Loses secretFingerprint kind identity buckets c) :
    Agree (bucketKey secretFingerprint kind identity) c.now (L.step secretFingerprint buckets c) own := by
  refine ⟨nodup_keys_step h.nodup c, ?_, h.only⟩
  rw [live_get_step h.nodup hkept, stored, Insertion.get_set, if_neg hc, ← live_live hnow, h.same, live_live hnow]

/-- The decisions for an identity in a run are those of the run of it alone. -/
theorem trace_filter {calls : List Call} (hmax : 1 ≤ L.maxBuckets)
    (hclock : (now :: calls.map Call.now).Pairwise (· ≤ ·))
    (hdistinct : ∀ c ∈ calls, isOf kind identity c = false →
      bucketKey secretFingerprint kind identity ≠ c.key secretFingerprint)
    (hrun : L.Undisturbed secretFingerprint kind identity buckets calls)
    (h : Agree (bucketKey secretFingerprint kind identity) now buckets own) :
    (L.trace secretFingerprint buckets calls).filter (fun e => isOf kind identity e.1) =
      L.trace secretFingerprint own (calls.filter (isOf kind identity)) := by
  induction calls generalizing now buckets own with
  | nil => rfl
  | cons c calls ih =>
    rw [List.map_cons, List.pairwise_cons] at hclock
    have hnow : now ≤ c.now := hclock.1 _ List.mem_cons_self
    have hrest := fun d hd => hdistinct d (List.mem_cons_of_mem _ hd)
    cases hc : isOf kind identity c with
    | true =>
      rw [List.filter_cons_of_pos hc, trace, trace,
        List.filter_cons_of_pos (p := fun e : Call × Decision => isOf kind identity e.1) hc,
        ih hclock.2 hrest hrun.2 (h.step_own hmax hnow hc hrun.1)]
      rw [consume, consume, h.bucket_eq hnow (key_of_isOf hc)]
    | false =>
      rw [trace, List.filter_cons_of_neg (by simp [hc]), List.filter_cons_of_neg (by simp [hc])]
      exact ih hclock.2 hrest hrun.2 (h.step_other hnow (hdistinct c List.mem_cons_self hc) hrun.1)

omit secretFingerprint L in
theorem mem_of_mem_trace {secretFingerprint : String → String} {L : InMemoryRateLimiter} {calls : List Call}
    {e : Call × Decision} (h : e ∈ L.trace secretFingerprint buckets calls) : e.1 ∈ calls := by
  induction calls generalizing buckets with
  | nil => exact absurd h List.not_mem_nil
  | cons c calls ih =>
    rcases List.mem_cons.mp h with rfl | h
    · exact List.mem_cons_self
    · exact List.mem_cons_of_mem _ (ih h)

/-! ### The limit -/

theorem isOk_answer {limit now : ℚ} {b : RateBucket} : (answer limit b now).isOk = true ↔ (b.count : ℚ) ≤ limit := by
  rw [answer]
  split_ifs with h
  · exact iff_of_false (by simp [Except.isOk, Except.toBool]) (not_le.mpr h)
  · exact iff_of_true rfl (not_lt.mp h)

theorem accepted_cons (calls : List Call) : L.accepted secretFingerprint kind identity buckets (c :: calls) =
    L.accepted secretFingerprint kind identity (L.step secretFingerprint buckets c) calls +
      if isOf kind identity c && (L.consume secretFingerprint buckets c).1.isOk then 1 else 0 := by
  rw [accepted, trace, List.countP_cons, accepted]

/-- While a bucket counts, what it has counted and what is still accepted stay within the limit. -/
theorem accepted_add_count_le {b : RateBucket} {calls : List Call}
    (hdistinct : ∀ c ∈ calls, isOf kind identity c = false →
      bucketKey secretFingerprint kind identity ≠ c.key secretFingerprint)
    (hrun : L.Undisturbed secretFingerprint kind identity buckets calls)
    (hnow : ∀ d ∈ calls, d.now < b.resetsAt) (hn : (keys buckets).Nodup)
    (hget : get (bucketKey secretFingerprint kind identity) buckets = some b) :
    (L.accepted secretFingerprint kind identity buckets calls : ℚ) + b.count ≤ max (L.policy.limits kind) b.count := by
  induction calls generalizing buckets b with
  | nil => simp [accepted, trace]
  | cons c calls ih =>
    have hlt : c.now < b.resetsAt := hnow c List.mem_cons_self
    have hrest := fun d hd => hdistinct d (List.mem_cons_of_mem _ hd)
    -- what is stored under the key after the call
    have hnext {b' : RateBucket} (hb' : b'.resetsAt = b.resetsAt)
        (hstored : get (bucketKey secretFingerprint kind identity) (L.stored secretFingerprint buckets c) = some b') :
        get (bucketKey secretFingerprint kind identity) (L.step secretFingerprint buckets c) = some b' := by
      have hlive := live_get_step hn hrun.1
      rw [hstored, live_eq_some.mpr ⟨rfl, hb' ▸ hlt⟩, live_eq_some] at hlive
      exact hlive.1
    cases hc : isOf kind identity c with
    | true =>
      have hkey : c.key secretFingerprint = bucketKey secretFingerprint kind identity := key_of_isOf hc
      have hbucket : L.bucket secretFingerprint buckets c = b.counted := by
        rw [bucket, hkey, hget, renewed, if_neg (not_le.mpr hlt)]
      have hstep := @ih _ b.counted hrest hrun.2 (fun d hd => hnow d (List.mem_cons_of_mem _ hd))
        (nodup_keys_step hn c) (hnext rfl (by rw [stored, Insertion.get_set, if_pos hkey.symm, hbucket]))
      have hkind : c.kind = kind := by
        rw [isOf, Bool.and_eq_true, decide_eq_true_eq] at hc
        exact hc.1
      have hcount : ((b.counted.count : ℕ) : ℚ) = b.count + 1 := by
        rw [RateBucket.counted]
        push_cast
        rfl
      rw [accepted_cons, hc, Bool.true_and]
      by_cases hle : ((b.counted.count : ℕ) : ℚ) ≤ L.policy.limits kind
      · have hok : (L.consume secretFingerprint buckets c).1.isOk = true := by
          rw [consume, hbucket, hkind]
          exact isOk_answer.mpr hle
        rw [max_eq_left hle] at hstep
        rw [if_pos hok, Nat.cast_add, Nat.cast_one]
        exact le_max_of_le_left (by linarith)
      · have hok : ¬ (L.consume secretFingerprint buckets c).1.isOk = true := by
          rw [consume, hbucket, hkind]
          exact fun h => hle (isOk_answer.mp h)
        rw [max_eq_right (not_le.mp hle).le] at hstep
        rw [if_neg hok, Nat.add_zero]
        exact le_max_of_le_right (by linarith)
    | false =>
      rw [accepted_cons, hc, Bool.false_and, if_neg Bool.false_ne_true, Nat.add_zero]
      have hstored : get (bucketKey secretFingerprint kind identity) (L.stored secretFingerprint buckets c) =
          some b := by
        rw [stored, Insertion.get_set, if_neg (hdistinct c List.mem_cons_self hc), hget]
      exact ih hrest hrun.2 (fun d hd => hnow d (List.mem_cons_of_mem _ hd)) (nodup_keys_step hn c) (hnext rfl hstored)

theorem one_le_limit (kind : RateLimitClass) : 1 ≤ L.policy.limits kind := by
  have h := L.valid.limits kind
  rw [invalidLimit, Bool.or_eq_false_iff, Bool.or_eq_false_iff, decide_eq_false_iff_not] at h
  exact not_lt.mp h.1.2

theorem windowMs_pos : 0 < L.policy.windowMs :=
  lt_of_lt_of_le (by norm_num) L.valid.le_windowMs

theorem nodup_keys_run (hn : (keys buckets).Nodup) (calls : List Call) :
    (keys (calls.foldl (L.step secretFingerprint) buckets)).Nodup := by
  induction calls generalizing buckets with
  | nil => exact hn
  | cons c calls ih => exact ih (nodup_keys_step hn c)

/-- From the call that opens a window to its end at most `limit` calls are accepted. -/
theorem accepted_window_le {inside : List Call}
    (hdistinct : ∀ c ∈ inside, isOf kind identity c = false →
      bucketKey secretFingerprint kind identity ≠ c.key secretFingerprint)
    (hrun : L.Undisturbed secretFingerprint kind identity buckets (c :: inside)) (hn : (keys buckets).Nodup)
    (hc : isOf kind identity c = true) (hopens : Opens secretFingerprint buckets c)
    (hnow : ∀ d ∈ inside, d.now < c.now + L.policy.windowMs) :
    (L.accepted secretFingerprint kind identity buckets (c :: inside) : ℚ) ≤ L.policy.limits kind := by
  have hkey : c.key secretFingerprint = bucketKey secretFingerprint kind identity := key_of_isOf hc
  have hlimit : 1 ≤ L.policy.limits kind := one_le_limit kind
  have hbucket : L.bucket secretFingerprint buckets c = ⟨1, c.now + L.policy.windowMs⟩ := by
    rw [bucket]
    cases hget : get (c.key secretFingerprint) buckets with
    | none => rfl
    | some b => rw [renewed, if_pos (hopens b hget), RateBucket.counted]
  have hget : get (bucketKey secretFingerprint kind identity) (L.step secretFingerprint buckets c) =
      some ⟨1, c.now + L.policy.windowMs⟩ := by
    have hlive := live_get_step hn hrun.1
    rw [stored, Insertion.get_set, if_pos hkey.symm, hbucket,
      live_eq_some.mpr ⟨rfl, lt_add_of_pos_right _ windowMs_pos⟩, live_eq_some] at hlive
    exact hlive.1
  have hrest := accepted_add_count_le (b := ⟨1, c.now + L.policy.windowMs⟩) hdistinct hrun.2 hnow
    (nodup_keys_step hn c) hget
  rw [Nat.cast_one, max_eq_left hlimit] at hrest
  rw [accepted_cons]
  split_ifs
  · push_cast
    exact hrest
  · rw [Nat.add_zero]
    linarith

/-! ### When the cap does nothing -/

/-- The buckets belong to earlier calls, from whose times their windows are counted. -/
structure Opened (L : InMemoryRateLimiter) (secretFingerprint : String → String) (before : List Call)
    (buckets : Buckets) : Prop where
  nodup : (keys buckets).Nodup
  call : ∀ e ∈ buckets, ∃ d ∈ before, d.key secretFingerprint = e.1 ∧ e.2.resetsAt = d.now + L.policy.windowMs

theorem Opened.stored {before : List Call} (h : Opened L secretFingerprint before buckets) (c : Call) :
    Opened L secretFingerprint (before ++ [c]) (L.stored secretFingerprint buckets c) := by
  refine ⟨nodup_keys_stored h.nodup c, ?_⟩
  intro e he
  rcases Insertion.mem_set he with rfl | he
  · have hfresh : ∃ d ∈ before ++ [c], d.key secretFingerprint = c.key secretFingerprint ∧
        c.now + L.policy.windowMs = d.now + L.policy.windowMs := ⟨c, by simp, rfl, rfl⟩
    rw [bucket]
    cases hget : get (c.key secretFingerprint) buckets with
    | none => exact hfresh
    | some b =>
      rw [renewed]
      split_ifs
      · exact hfresh
      · obtain ⟨d, hd, hkey, hresets⟩ := h.call _ (Assoc.mem_of_get hget)
        exact ⟨d, List.mem_append_left _ hd, hkey, hresets⟩
  · obtain ⟨d, hd, hboth⟩ := h.call e he
    exact ⟨d, List.mem_append_left _ hd, hboth⟩

theorem Opened.step {before : List Call} (h : Opened L secretFingerprint before buckets) (c : Call) :
    Opened L secretFingerprint (before ++ [c]) (L.step secretFingerprint buckets c) :=
  ⟨nodup_keys_step h.nodup c, fun e he => (h.stored c).call e ((evict_sublist _ _ _).subset he)⟩

/-- There are at most as many buckets that count as there are callers within a window. -/
theorem Opened.length_live_le {before : List Call} (h : Opened L secretFingerprint before buckets) (now : ℚ) :
    (buckets.filter fun e => !decide (e.2.resetsAt ≤ now)).length ≤ (L.callers before now).card := by
  have hnodup := Insertion.nodup_keys_of_sublist
    (List.filter_sublist (p := fun e => !decide (e.2.resetsAt ≤ now))) h.nodup
  have hsubset : (keys (buckets.filter fun e => !decide (e.2.resetsAt ≤ now))).toFinset ⊆
      (L.callers before now).image fun p => bucketKey secretFingerprint p.1 p.2 := by
    intro k hk
    obtain ⟨e, he, rfl⟩ := List.mem_map.mp (List.mem_toFinset.mp hk)
    obtain ⟨hmem, hlive⟩ := List.mem_filter.mp he
    obtain ⟨d, hd, hkey, hresets⟩ := h.call e hmem
    rw [Bool.not_eq_true', decide_eq_false_iff_not, not_le, hresets] at hlive
    refine Finset.mem_image.mpr ⟨(d.kind, d.identity), ?_, hkey⟩
    exact List.mem_toFinset.mpr (List.mem_map.mpr ⟨d, List.mem_filter.mpr ⟨hd, decide_eq_true hlive⟩, rfl⟩)
  calc (buckets.filter fun e => !decide (e.2.resetsAt ≤ now)).length
    _ = (keys (buckets.filter fun e => !decide (e.2.resetsAt ≤ now))).toFinset.card := by
      rw [List.toFinset_card_of_nodup hnodup, keys, List.length_map]
    _ ≤ ((L.callers before now).image fun p => bucketKey secretFingerprint p.1 p.2).card := Finset.card_le_card hsubset
    _ ≤ (L.callers before now).card := Finset.card_image_le

theorem Opened.not_loses {before : List Call} (h : Opened L secretFingerprint before buckets)
    (hcard : (L.callers (before ++ [c]) c.now).card ≤ L.maxBuckets) :
    ¬ L.Loses secretFingerprint kind identity buckets c := by
  rintro ⟨b, hget, hb, hnone⟩
  have hkept := get_evict (h.stored c).nodup (((h.stored c).length_live_le c.now).trans hcard) hget hb
  exact absurd (hkept.symm.trans hnone) (by simp)

theorem Opened.undisturbed {before calls : List Call} (h : Opened L secretFingerprint before buckets)
    (hcalm : ∀ earlier c later, calls = earlier ++ c :: later →
      (L.callers (before ++ earlier ++ [c]) c.now).card ≤ L.maxBuckets) :
    L.Undisturbed secretFingerprint kind identity buckets calls := by
  induction calls generalizing before buckets with
  | nil => trivial
  | cons c calls ih =>
    refine ⟨h.not_loses (by simpa using hcalm [] c calls rfl), ih (h.step c) ?_⟩
    intro earlier d later hcalls
    have hd := hcalm (c :: earlier) d later (by rw [hcalls, List.cons_append])
    simpa using hd

/-! ### Isolation -/

omit L in
theorem head_bucketKey (kind : RateLimitClass) (identity : String) :
    (bucketKey secretFingerprint kind identity).toList.head? = kind.text.toList.head? := by
  rw [bucketKey, String.append_assoc, String.toList_append]
  cases kind <;> rfl

omit L in
/-- The keys of different classes differ, and so do those of different fingerprints. -/
theorem bucketKey_inj {kind' : RateLimitClass} {identity' : String}
    (h : bucketKey secretFingerprint kind identity = bucketKey secretFingerprint kind' identity') :
    kind = kind' ∧ secretFingerprint identity = secretFingerprint identity' := by
  have hkind : kind = kind' := by
    have hhead := congrArg (fun s => s.toList.head?) h
    simp only [head_bucketKey] at hhead
    revert hhead
    cases kind <;> cases kind' <;> decide
  subst hkind
  refine ⟨rfl, ?_⟩
  rw [bucketKey, bucketKey] at h
  exact String.append_right_inj _ |>.mp h

omit L in
/-- With distinct fingerprints the key of an identity that calls is not that of another call. -/
theorem bucketKey_ne {calls : List Call} (hdistinct : ∀ c ∈ calls, ∀ d ∈ calls,
    secretFingerprint c.identity = secretFingerprint d.identity → c.identity = d.identity)
    (hc : c ∈ calls) (hmine : isOf kind identity c = true) :
    ∀ d ∈ calls, isOf kind identity d = false →
      bucketKey secretFingerprint kind identity ≠ d.key secretFingerprint := by
  intro d hd hother hkey
  rw [← key_of_isOf hmine] at hkey
  obtain ⟨hkind, hfingerprint⟩ := bucketKey_inj hkey
  rw [isOf, Bool.and_eq_true, decide_eq_true_eq, decide_eq_true_eq] at hmine
  rw [isOf, ← hkind, ← hdistinct c hc d hd hfingerprint, hmine.1, hmine.2] at hother
  simp at hother

/-- **Isolation** of the classes and identities from one another, for fingerprints that tell the callers apart and a
clock that does not go back. -/
theorem rateLimiter_isolated (L : InMemoryRateLimiter) (secretFingerprint : String → String) (calls : List Call)
    (hmax : 1 ≤ L.maxBuckets) (hclock : (calls.map Call.now).Pairwise (· ≤ ·))
    (hdistinct : ∀ c ∈ calls, ∀ d ∈ calls,
      secretFingerprint c.identity = secretFingerprint d.identity → c.identity = d.identity) :
    L.Isolated secretFingerprint calls where
  bounded := by
    have hall : EachStep (L.step secretFingerprint) (fun _ _ => True) [] calls :=
      eachStep_of_forall (fun _ _ => trivial) _ _
    exact hall.forall_mem_scanl (I := fun buckets => buckets.length ≤ L.maxBuckets)
      (fun _ _ _ _ => length_evict_le _ _ _) (Nat.zero_le _)
  alone kind identity hrun := by
    cases calls with
    | nil => rfl
    | cons first calls =>
      rw [List.map_cons, List.pairwise_cons] at hclock
      by_cases hcalls : ∃ c ∈ first :: calls, isOf kind identity c = true
      · obtain ⟨c, hc, hmine⟩ := hcalls
        have hsorted : (first.now :: (first :: calls).map Call.now).Pairwise (· ≤ ·) := by
          rw [List.map_cons, List.pairwise_cons, List.pairwise_cons, List.forall_mem_cons]
          exact ⟨⟨le_rfl, hclock.1⟩, hclock⟩
        exact trace_filter hmax hsorted (bucketKey_ne hdistinct hc hmine) hrun ⟨List.nodup_nil, rfl, Or.inl rfl⟩
      · have hnone : ∀ c ∈ first :: calls, ¬ isOf kind identity c = true := fun c hc hmine => hcalls ⟨c, hc, hmine⟩
        rw [List.filter_eq_nil_iff.mpr hnone]
        exact List.filter_eq_nil_iff.mpr fun e he => hnone e.1 (mem_of_mem_trace he)
  window kind identity hrun before c inside after hcalls hc hopens hnow := by
    subst hcalls
    have hc' : c ∈ before ++ (c :: inside ++ after) := by simp
    have hnil : (keys ([] : Buckets)).Nodup := List.nodup_nil
    have hrun' := (eachStep_append.mp (eachStep_append.mp hrun).2).1
    refine accepted_window_le ?_ hrun' (nodup_keys_run hnil before) hc hopens hnow
    intro d hd
    exact bucketKey_ne hdistinct hc' hc d (by simp [hd])
  calm h kind identity := by
    have hnone : Opened L secretFingerprint [] [] := ⟨List.nodup_nil, fun e he => absurd he List.not_mem_nil⟩
    refine hnone.undisturbed ?_
    simpa using h

end InMemoryRateLimiter

end

/-! ### Two peers and a cap of one bucket -/

/-- The fingerprints of two addresses. -/
def peerFingerprint (identity : String) : String :=
  if identity = "198.51.100.1" then "7f60d869b36f6e64"
  else if identity = "198.51.100.2" then "8c9bbd8a13b8a1f9"
  else "unknown " ++ identity

/-- One call of each class in ten seconds. -/
def tightLimiter (maxBuckets : ℕ) : InMemoryRateLimiter where
  policy := { windowMs := 10000, limits := fun _ => 1 }
  maxBuckets := maxBuckets
  valid := ⟨by norm_num, by norm_num, fun _ => by rfl⟩

/-- The first peer calls, then the second, then the first again. -/
def peerCalls : List Call :=
  [⟨.auth, "198.51.100.1", 1000⟩, ⟨.auth, "198.51.100.2", 1001⟩, ⟨.auth, "198.51.100.1", 1002⟩]

/-- With room for one bucket the second call of the first peer is accepted only because the other has called. -/
theorem cap_resets_a_window :
    ((tightLimiter 1).trace peerFingerprint [] peerCalls).filter (fun e =>
        InMemoryRateLimiter.isOf .auth "198.51.100.1" e.1) ≠
      (tightLimiter 1).trace peerFingerprint [] (peerCalls.filter (InMemoryRateLimiter.isOf .auth "198.51.100.1")) ∧
    (tightLimiter 1).accepted peerFingerprint .auth "198.51.100.1" [] peerCalls = 2 := by
  decide +kernel

theorem rateLimiter_isolated_peers : (tightLimiter 20000).Isolated peerFingerprint peerCalls :=
  InMemoryRateLimiter.rateLimiter_isolated _ _ _ (by decide) (by decide +kernel) (by decide)

end Forge.Gateway
