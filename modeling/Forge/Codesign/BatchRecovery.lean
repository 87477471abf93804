import Forge.Codesign.BatchCheckpoint
import Mathlib.Algebra.Field.Rat

/-!
# Taking up an engine batch again

A history of the batch is a list of calls, each of which may be killed at one of its saves, and each of which
is given the last checkpoint that was saved before it. `Sound` is what every saved checkpoint satisfies
(`sound_of_mem_saves`); from it follow the order of the ordinals, that no saved ordinal is evaluated again, and
that a complete batch does not depend on the interruptions.

**`batch_recovers_iff`**: what the worker does not keep is that every saved checkpoint can be loaded. The one
saved after the last candidate is still in the state `running`, with all 200 candidates in it, and
`validateCheckpoint` refuses that.
-/

namespace Forge.Codesign

open Entry

variable (lib : BatchLibrary) (inputs : BatchInputs)

/-! ### The derived evidence -/

section Refresh

variable (c : Checkpoint)

@[simp] theorem refresh_candidates : (refresh lib c).candidates = c.candidates := rfl

@[simp] theorem refresh_state : (refresh lib c).scheduler.state = c.scheduler.state := rfl

@[simp] theorem refresh_nextOrdinal : (refresh lib c).scheduler.nextOrdinal = c.scheduler.nextOrdinal := rfl

@[simp] theorem refresh_attempts : (refresh lib c).scheduler.attempts = c.scheduler.attempts := rfl

/-- The evidence is derived from what is not derived. -/
theorem refresh_refresh : refresh lib (refresh lib c) = refresh lib c := rfl

theorem refresh_checkpointSha256 :
    (refresh lib c).checkpointSha256 = lib.checkpointSha (checkpointPayload (refresh lib c)) := rfl

theorem refresh_without_hash : refresh lib { c with checkpointSha256 := "" } = refresh lib c := rfl

/-- A checkpoint of the plan: the header, and the constants of the scheduler. -/
structure OfPlan : Prop where
  header : ∃ scheduler, c =
    { withHeader inputs scheduler c.candidates with
      pareto := c.pareto, finalists := c.finalists, benchmark := c.benchmark, cost := c.cost
      checkpointSha256 := c.checkpointSha256 }
  constants : ∃ state nextOrdinal completed resumed cancelled attempts, c.scheduler =
    { newScheduler inputs with
      state := state, nextOrdinal := nextOrdinal, completedCandidates := completed, resumeObserved := resumed
      cancellationObserved := cancelled, attempts := attempts }

variable {lib inputs c}

theorem ofPlan_new : OfPlan inputs (newCheckpoint lib inputs) := ⟨⟨_, rfl⟩, ⟨_, _, _, _, _, _, rfl⟩⟩

/-- What a call changes in a checkpoint leaves it a checkpoint of the plan. -/
theorem OfPlan.refresh (h : OfPlan inputs c) (state : SchedulerState) (nextOrdinal : ℕ) (attempts : List Attempt)
    (candidates : List Candidate) :
    OfPlan inputs (refresh lib
      { c with
        candidates
        scheduler := { c.scheduler with state, nextOrdinal, attempts } }) := by
  obtain ⟨⟨scheduler, hheader⟩, ⟨_, _, _, _, _, _, hscheduler⟩⟩ := h
  rw [hheader] at hscheduler ⊢
  obtain rfl : scheduler = _ := hscheduler
  exact ⟨⟨_, rfl⟩, ⟨_, _, _, _, _, _, rfl⟩⟩

theorem OfPlan.validateHeader (h : OfPlan inputs c) (hc : Codesign.refresh lib c = c) :
    validateHeader lib inputs c = .ok () := by
  have hsha : c.checkpointSha256 = lib.checkpointSha (checkpointPayload c) := by
    rw [← hc]
    exact refresh_checkpointSha256 lib c
  obtain ⟨⟨scheduler, hheader⟩, -⟩ := h
  unfold Codesign.validateHeader
  rw [if_neg (by rw [hheader]; simp [withHeader]), if_neg (by rw [hheader]; simp [withHeader]),
    if_neg (by rw [hheader]; simp [withHeader]), if_neg (fun hne => hne hsha)]
  have hfields : headerFields c (newCheckpoint lib inputs) =
      [("cacheKey", true), ("source", true), ("manifold", true), ("constraints", true), ("optimizer", true),
        ("nonclaims", true)] := by
    rw [hheader]
    simp [headerFields, newCheckpoint, Codesign.refresh, derive, withHeader]
  rw [hfields]
  rfl

theorem OfPlan.validateScheduler (h : OfPlan inputs c) (hc : Codesign.refresh lib c = c)
    (hlength : c.candidates.length = c.scheduler.nextOrdinal) (hle : c.scheduler.nextOrdinal ≤ totalProposals) :
    validateScheduler c = .ok () := by
  have hcompleted : c.scheduler.completedCandidates = c.scheduler.nextOrdinal := by
    rw [← hlength, ← hc]
    rfl
  obtain ⟨⟨scheduler, hheader⟩, ⟨_, _, _, _, _, _, hscheduler⟩⟩ := h
  unfold Codesign.validateScheduler
  rw [if_neg (by simp [hle, hcompleted]), if_neg]
  rw [hheader] at hscheduler ⊢
  obtain rfl : scheduler = _ := hscheduler
  simp [withHeader, newScheduler, batchSource]

end Refresh

/-! ### Attempts -/

theorem validateAttemptsFrom_append (attempts : List Attempt) (a : Attempt) (sequence cursor : ℕ) :
    validateAttemptsFrom sequence cursor (attempts ++ [a]) =
      (validateAttemptsFrom sequence cursor attempts >>= fun next =>
        validateAttempt (sequence + attempts.length) next a) := by
  induction attempts generalizing sequence cursor with
  | nil => cases h : validateAttempt sequence cursor a <;> simp [validateAttemptsFrom, h, bind, Except.bind]
  | cons b attempts ih =>
    have hlength : sequence + (b :: attempts).length = sequence + 1 + attempts.length := by
      simp only [List.length_cons]
      omega
    rw [List.cons_append, validateAttemptsFrom, validateAttemptsFrom, bind_assoc, hlength]
    exact bind_congr fun next => ih (sequence + 1) next

theorem lastOutcome_append (attempts : List Attempt) (a : Attempt) :
    lastOutcome (attempts ++ [a]) = some a.outcome := by
  simp [lastOutcome]

/-- An attempt may be marked as interrupted. -/
theorem validateAttempt_interrupted {sequence cursor next : ℕ} {a : Attempt}
    (h : validateAttempt sequence cursor a = .ok next) :
    validateAttempt sequence cursor { a with outcome := .interrupted } = .ok next := by
  simp only [validateAttempt, ite_error_eq_ok] at h ⊢
  obtain ⟨hsequence, hrange, hlimit, hruntime, -, -, hnext⟩ := h
  exact ⟨hsequence, hrange, hlimit, hruntime, by simp, by simp, hnext⟩

/-- The current attempt of a call that began at `start` and stands at `next`. -/
structure Covers (earlier : List Attempt) (start next : ℕ) (a : Attempt) : Prop where
  earlier_ok : validateAttemptsFrom 1 0 earlier = .ok start
  sequence : a.sequence = earlier.length + 1
  startOrdinal : a.startOrdinal = start
  endOrdinal : a.endOrdinalExclusive = next
  evaluated : start + a.candidatesEvaluated = next
  limit : ∀ limit ∈ a.requestedLimit, 0 ≤ limit
  runtime : 0 ≤ a.runtimeMs

theorem Covers.validateAttemptsFrom {earlier : List Attempt} {start next : ℕ} {a : Attempt}
    (h : Covers earlier start next a) (hle : next ≤ totalProposals) (hcancelled : a.outcome = .cancelled → next = start)
    (hcomplete : a.outcome = .complete → next = totalProposals) :
    validateAttemptsFrom 1 0 (earlier ++ [a]) = .ok next := by
  rw [validateAttemptsFrom_append, h.earlier_ok]
  change validateAttempt (1 + earlier.length) start a = .ok next
  simp only [validateAttempt, ite_error_eq_ok, h.endOrdinal, h.sequence, h.startOrdinal]
  have hevaluated := h.evaluated
  refine ⟨by omega, by omega, ?_, not_lt.mpr h.runtime, ?_, fun hc => hc.2 (hcomplete hc.1), trivial⟩
  · rintro ⟨limit, hmem, hneg⟩
    exact absurd (h.limit limit hmem) (not_le.mpr hneg)
  · rintro ⟨hc, hne⟩
    have := hcancelled hc
    omega

/-- The attempt after one more candidate. -/
theorem Covers.advance {earlier : List Attempt} {start next : ℕ} {a : Attempt} (h : Covers earlier start next a)
    (elapsed : ℚ≥0) : Covers earlier start (next + 1) (advanceAttempt a next elapsed) where
  earlier_ok := h.earlier_ok
  sequence := h.sequence
  startOrdinal := h.startOrdinal
  endOrdinal := rfl
  evaluated := by
    have := h.evaluated
    simp only [advanceAttempt, h.startOrdinal]
    omega
  limit := h.limit
  runtime := elapsed.2

/-- The attempt at its end. -/
theorem Covers.end {earlier : List Attempt} {start next : ℕ} {a : Attempt} (h : Covers earlier start next a)
    (outcome : AttemptOutcome) (elapsed : ℚ≥0) :
    Covers earlier start next { a with outcome, runtimeMs := elapsed } :=
  { h with runtime := elapsed.2 }

/-! ### Candidates -/

variable {lib inputs}

/-- A candidate that passes has the ordinal of its proposal. -/
theorem ordinal_of_validateCandidate {o : ℕ} {x : Candidate}
    (h : validateCandidate lib inputs (inputs.proposals o) x = .ok ()) : x.ordinal = o := by
  obtain ⟨expected, hexpected, hsame⟩ := bind_eq_ok.mp h
  obtain rfl : x = expected := by simpa [ite_error_eq_ok] using hsame
  obtain ⟨-, hbuilt⟩ := check_eq_ok.mp hexpected
  obtain ⟨records, -, hrecord⟩ := bind_eq_ok.mp hbuilt
  rw [← Except.ok.inj hrecord]
  exact inputs.proposals_ordinal o

theorem evaluateProposal_eq_ok {call : Call} {o : ℕ} {x : Candidate} :
    evaluateProposal lib inputs call o = .ok x ↔
      call.evaluator (inputs.proposals o) = .ok x ∧ validateCandidate lib inputs (inputs.proposals o) x = .ok () := by
  unfold evaluateProposal
  rw [bind_eq_ok]
  constructor
  · rintro ⟨y, hy, hx⟩
    obtain ⟨hvalid, hxy⟩ := check_eq_ok.mp hx
    obtain rfl := Except.ok.inj hxy
    exact ⟨hy, hvalid⟩
  · rintro ⟨hx, hvalid⟩
    exact ⟨x, hx, check_eq_ok.mpr ⟨hvalid, rfl⟩⟩

variable (lib inputs) in
/-- The candidates are those of the first proposals, each with the property `P` of what evaluators deliver. -/
def Evaluated (P : ℕ → Candidate → Prop) (n : ℕ) (candidates : List Candidate) : Prop :=
  List.Forall₂ (fun o x => validateCandidate lib inputs (inputs.proposals o) x = .ok () ∧ P o x)
    (List.range n) candidates

variable {P : ℕ → Candidate → Prop}

theorem Evaluated.length {n : ℕ} {candidates : List Candidate} (h : Evaluated lib inputs P n candidates) :
    candidates.length = n := by
  rw [← List.Forall₂.length_eq h, List.length_range]

theorem Evaluated.append {n : ℕ} {candidates : List Candidate} (h : Evaluated lib inputs P n candidates) {x : Candidate}
    (hvalid : validateCandidate lib inputs (inputs.proposals n) x = .ok ()) (hx : P n x) :
    Evaluated lib inputs P (n + 1) (candidates ++ [x]) := by
  unfold Evaluated
  rw [List.range_succ]
  exact List.rel_append h (.cons ⟨hvalid, hx⟩ .nil)

/-- The ordinals `0, …, n - 1`, once each. -/
theorem Evaluated.ordinals {n : ℕ} {candidates : List Candidate} (h : Evaluated lib inputs P n candidates) :
    candidates.map (·.ordinal) = List.range n := by
  unfold Evaluated at h
  generalize List.range n = ordinals at h
  induction h with
  | nil => rfl
  | cons hx _ ih => rw [List.map_cons, ih, ordinal_of_validateCandidate hx.1]

theorem validateCandidatesFrom_of_forall₂ {n : ℕ} {candidates : List Candidate}
    (h : List.Forall₂ (fun o x => validateCandidate lib inputs (inputs.proposals o) x = .ok () ∧ P o x)
      (List.range' n candidates.length) candidates) :
    validateCandidatesFrom lib inputs n candidates = .ok () := by
  induction candidates generalizing n with
  | nil => rfl
  | cons x candidates ih =>
    cases h with
    | cons hx htail =>
      rw [validateCandidatesFrom, if_neg (not_not.mpr (ordinal_of_validateCandidate hx.1)), check_eq_ok]
      exact ⟨hx.1, ih htail⟩

theorem Evaluated.validateCandidatesFrom {n : ℕ} {candidates : List Candidate}
    (h : Evaluated lib inputs P n candidates) : validateCandidatesFrom lib inputs 0 candidates = .ok () := by
  apply validateCandidatesFrom_of_forall₂ (P := P)
  rw [h.length, ← List.range_eq_range']
  exact h

/-! ### Saved checkpoints -/

/-- The state goes with the outcome of the last attempt. -/
def StateMatches (state : SchedulerState) (attempts : List Attempt) : Prop :=
  (state = .ready ∧ attempts = []) ∨
    ∃ outcome, lastOutcome attempts = some outcome ∧ outcome ∈ (expectedTerminalOutcomes state).getD []

variable (lib inputs P) in
/-- **What every saved checkpoint satisfies**, with the property `P` of the candidates that evaluators deliver. -/
structure Sound (c : Checkpoint) : Prop where
  plan : OfPlan inputs c
  derived : refresh lib c = c
  attempts : validateAttemptsFrom 1 0 c.scheduler.attempts = .ok c.scheduler.nextOrdinal
  evaluated : Evaluated lib inputs P c.scheduler.nextOrdinal c.candidates
  le_total : c.scheduler.nextOrdinal ≤ totalProposals
  state : StateMatches c.scheduler.state c.scheduler.attempts
  complete : c.scheduler.state = .complete → c.scheduler.nextOrdinal = totalProposals
  ended : c.scheduler.nextOrdinal = totalProposals → c.scheduler.state = .running ∨ c.scheduler.state = .complete

/-- The checkpoint between the last candidate and the end of the call. -/
def Unfinished (c : Checkpoint) : Prop := c.scheduler.state = .running ∧ c.scheduler.nextOrdinal = totalProposals

theorem Sound.validateAttempts {c : Checkpoint} (h : Sound lib inputs P c) : validateAttempts c.scheduler = .ok () := by
  refine bind_eq_ok.mpr ⟨_, h.attempts, ?_⟩
  simp only [ite_error_eq_ok]
  obtain ⟨hready, hnone⟩ | ⟨outcome, hlast, hmem⟩ := h.state
  · simp [hready, hnone, lastOutcome, expectedTerminalOutcomes]
  · cases hstate : c.scheduler.state <;> rw [hstate] at hmem <;> simp [expectedTerminalOutcomes] at hmem
    all_goals first | subst hmem | obtain rfl | rfl := hmem
    all_goals simp [hlast, expectedTerminalOutcomes]

theorem Sound.validateState_iff {c : Checkpoint} (h : Sound lib inputs P c) :
    validateState c.scheduler = .ok () ↔ ¬Unfinished c := by
  have hready : c.scheduler.state = .ready → c.scheduler.attempts = [] := by
    intro hs
    obtain ⟨-, hnone⟩ | ⟨outcome, -, hmem⟩ := h.state
    · exact hnone
    · rw [hs] at hmem
      exact absurd hmem List.not_mem_nil
  simp only [validateState, ite_error_eq_ok, Unfinished, and_true]
  constructor
  · rintro ⟨-, -, hended⟩ ⟨hrunning, hnext⟩
    exact hended ⟨by simp [hrunning], hnext⟩
  · intro hunfinished
    refine ⟨fun hs => hs.2 (hready hs.1), fun hs => hs.2 (h.complete hs.1), ?_⟩
    rintro ⟨hne, hnext⟩
    obtain hrunning | hcomplete := h.ended hnext
    · exact hunfinished ⟨hrunning, hnext⟩
    · exact hne hcomplete

/-- **A saved checkpoint is accepted** unless it is the one between the last candidate and the end. -/
theorem Sound.validateCheckpoint_iff {c : Checkpoint} (h : Sound lib inputs P c) :
    validateCheckpoint lib inputs c = .ok c ↔ ¬Unfinished c := by
  have hlength := h.evaluated.length
  rw [← h.validateState_iff, validateCheckpoint, check_eq_ok, check_eq_ok, check_eq_ok, ite_error_eq_ok, check_eq_ok,
    ite_error_eq_ok, check_eq_ok]
  constructor
  · exact fun hall => hall.2.2.2.2.2.2.1
  · intro hstate
    refine ⟨h.plan.validateHeader h.derived, h.plan.validateScheduler h.derived hlength h.le_total, h.validateAttempts,
      not_not.mpr hlength, h.evaluated.validateCandidatesFrom, ?_, hstate, rfl⟩
    rw [refresh_without_hash, h.derived]
    exact not_not.mpr rfl

/-- A checkpoint that is refreshed with sound parts is sound. -/
theorem sound_refresh {c : Checkpoint} (plan : OfPlan inputs c) (state : SchedulerState) (nextOrdinal : ℕ)
    (attempts : List Attempt) (candidates : List Candidate)
    (hattempts : validateAttemptsFrom 1 0 attempts = .ok nextOrdinal)
    (hevaluated : Evaluated lib inputs P nextOrdinal candidates) (hle : nextOrdinal ≤ totalProposals)
    (hstate : StateMatches state attempts) (hcomplete : state = .complete → nextOrdinal = totalProposals)
    (hended : nextOrdinal = totalProposals → state = .running ∨ state = .complete) :
    Sound lib inputs P (refresh lib
      { c with
        candidates
        scheduler := { c.scheduler with state, nextOrdinal, attempts } }) where
  plan := plan.refresh state nextOrdinal attempts candidates
  derived := refresh_refresh lib _
  attempts := hattempts
  evaluated := hevaluated
  le_total := hle
  state := hstate
  complete := hcomplete
  ended := hended

theorem sound_new : Sound lib inputs P (newCheckpoint lib inputs) where
  plan := ofPlan_new
  derived := refresh_refresh lib _
  attempts := rfl
  evaluated := .nil
  le_total := Nat.zero_le _
  state := .inl ⟨rfl, rfl⟩
  complete := fun h => by cases h
  ended := fun h => by cases h

/-! ### The steps of a call -/

/-- A checkpoint that a call may go on from has ordinals left, unless it is complete. -/
theorem Sound.lt_total {c : Checkpoint} (h : Sound lib inputs P c) (hopen : ¬Unfinished c)
    (hcomplete : c.scheduler.state ≠ .complete) : c.scheduler.nextOrdinal < totalProposals := by
  apply lt_of_le_of_ne h.le_total
  intro hnext
  obtain hrunning | hc := h.ended hnext
  · exact hopen ⟨hrunning, hnext⟩
  · exact hcomplete hc

theorem Sound.markInterrupted {c : Checkpoint} (h : Sound lib inputs P c)
    (hlast : lastOutcome c.scheduler.attempts = some .running) (hlt : c.scheduler.nextOrdinal < totalProposals) :
    Sound lib inputs P (markInterrupted lib c) := by
  obtain ⟨a, ha, houtcome⟩ := Option.map_eq_some_iff.mp hlast
  obtain ⟨earlier, hsplit⟩ := List.getLast?_eq_some_iff.mp ha
  have hattempts := h.attempts
  rw [hsplit, validateAttemptsFrom_append, bind_eq_ok] at hattempts
  obtain ⟨cursor, hearlier, hattempt⟩ := hattempts
  have hmarked : validateAttemptsFrom 1 0 (earlier ++ [{ a with outcome := .interrupted }]) =
      .ok c.scheduler.nextOrdinal := by
    rw [validateAttemptsFrom_append, hearlier]
    exact validateAttempt_interrupted hattempt
  have hlist : c.scheduler.attempts.dropLast ++
      c.scheduler.attempts.getLast?.toList.map ({ · with outcome := .interrupted }) =
        earlier ++ [{ a with outcome := .interrupted }] := by
    rw [hsplit]
    simp
  unfold Codesign.markInterrupted
  rw [hlist]
  refine sound_refresh h.plan .paused c.scheduler.nextOrdinal _ c.candidates hmarked h.evaluated h.le_total ?_
    (fun hs => by cases hs) (fun hn => absurd hn hlt.ne)
  exact .inr ⟨.interrupted, lastOutcome_append _ _, by simp [expectedTerminalOutcomes]⟩

variable (lib inputs P) in
/-- The state of a call between two candidates: the attempt that it added is the last one and is running. -/
structure InCall (earlier : List Attempt) (start : ℕ) (a : Attempt) (c : Checkpoint) : Prop where
  sound : Sound lib inputs P c
  running : c.scheduler.state = .running
  covers : Covers earlier start c.scheduler.nextOrdinal a
  outcome : a.outcome = .running

/-- The attempt of a call when it is added. -/
theorem Sound.covers_newAttempt {c : Checkpoint} (h : Sound lib inputs P c) {call : Call}
    (hlimit : ∀ limit ∈ call.maxCandidates, 0 ≤ limit) :
    Covers c.scheduler.attempts c.scheduler.nextOrdinal c.scheduler.nextOrdinal (newAttempt c call) where
  earlier_ok := h.attempts
  sequence := rfl
  startOrdinal := rfl
  endOrdinal := rfl
  evaluated := rfl
  limit := hlimit
  runtime := le_refl 0

/-- The checkpoint with the attempt of the call, in a state that goes with it. -/
theorem Covers.sound_withAttempt {earlier : List Attempt} {start : ℕ} {a : Attempt} {c : Checkpoint}
    (h : Covers earlier start c.scheduler.nextOrdinal a) (hc : Sound lib inputs P c) {state : SchedulerState}
    (hstate : a.outcome ∈ (expectedTerminalOutcomes state).getD [])
    (hcancelled : a.outcome = .cancelled → c.scheduler.nextOrdinal = start)
    (hcomplete : a.outcome = .complete ∨ state = .complete → c.scheduler.nextOrdinal = totalProposals)
    (hended : c.scheduler.nextOrdinal = totalProposals → state = .running ∨ state = .complete) :
    Sound lib inputs P (withAttempt lib c state earlier a) :=
  sound_refresh hc.plan state c.scheduler.nextOrdinal (earlier ++ [a]) c.candidates
    (h.validateAttemptsFrom hc.le_total hcancelled fun ha => hcomplete (.inl ha)) hc.evaluated hc.le_total
    (.inr ⟨_, lastOutcome_append _ _, hstate⟩) (fun hs => hcomplete (.inr hs)) hended

/-- The call is cancelled before it evaluates anything. -/
theorem Sound.cancelled {c : Checkpoint} (h : Sound lib inputs P c) (hlt : c.scheduler.nextOrdinal < totalProposals)
    {call : Call} (hlimit : ∀ limit ∈ call.maxCandidates, 0 ≤ limit) :
    Sound lib inputs P (withAttempt lib c .cancelled c.scheduler.attempts
      { newAttempt c call with outcome := .cancelled, runtimeMs := call.elapsedAtEnd }) :=
  ((h.covers_newAttempt hlimit).end .cancelled call.elapsedAtEnd).sound_withAttempt h
    (by simp [expectedTerminalOutcomes]) (fun _ => rfl) (by rintro (hs | hs) <;> cases hs)
    (fun hn => absurd hn hlt.ne)

/-- The call begins. -/
theorem Sound.inCall {c : Checkpoint} (h : Sound lib inputs P c) (hlt : c.scheduler.nextOrdinal < totalProposals)
    {call : Call} (hlimit : ∀ limit ∈ call.maxCandidates, 0 ≤ limit) :
    InCall lib inputs P c.scheduler.attempts c.scheduler.nextOrdinal (newAttempt c call)
      (withAttempt lib c .running c.scheduler.attempts (newAttempt c call)) where
  sound := (h.covers_newAttempt hlimit).sound_withAttempt h (by simp [newAttempt, expectedTerminalOutcomes])
    (fun hs => by cases hs) (by rintro (hs | hs) <;> cases hs) (fun hn => absurd hn hlt.ne)
  running := rfl
  covers := h.covers_newAttempt hlimit
  outcome := rfl

/-- One more candidate. -/
theorem InCall.withCandidate {earlier : List Attempt} {start : ℕ} {a : Attempt} {c : Checkpoint}
    (h : InCall lib inputs P earlier start a c) (hlt : c.scheduler.nextOrdinal < totalProposals) {x : Candidate}
    (hvalid : validateCandidate lib inputs (inputs.proposals c.scheduler.nextOrdinal) x = .ok ())
    (hx : P c.scheduler.nextOrdinal x) (elapsed : ℚ≥0) :
    InCall lib inputs P earlier start (advanceAttempt a c.scheduler.nextOrdinal elapsed)
      (withCandidate lib c earlier (advanceAttempt a c.scheduler.nextOrdinal elapsed) c.scheduler.nextOrdinal x) := by
  have hcovers := h.covers.advance elapsed
  have houtcome : (advanceAttempt a c.scheduler.nextOrdinal elapsed).outcome = .running := h.outcome
  refine { sound := ?_, running := h.running, covers := hcovers, outcome := houtcome }
  refine sound_refresh h.sound.plan c.scheduler.state (c.scheduler.nextOrdinal + 1)
    (earlier ++ [advanceAttempt a c.scheduler.nextOrdinal elapsed]) (c.candidates ++ [x])
    (hcovers.validateAttemptsFrom hlt ?_ ?_) (h.sound.evaluated.append hvalid hx) hlt
    (.inr ⟨.running, (lastOutcome_append _ _).trans (congrArg some houtcome), ?_⟩) ?_ fun _ => .inl h.running
  · rw [houtcome]
    exact fun hs => by cases hs
  · rw [houtcome]
    exact fun hs => by cases hs
  · rw [h.running]
    exact List.mem_singleton_self _
  · rw [h.running]
    exact fun hs => by cases hs

/-- The end of a call that went up to its limit. -/
theorem InCall.finish {earlier : List Attempt} {start : ℕ} {a : Attempt} {c : Checkpoint}
    (h : InCall lib inputs P earlier start a c) (call : Call) :
    ∃ value, finishCall lib inputs call earlier c.scheduler.nextOrdinal a c =
        ([.save value], validateCheckpoint lib inputs value) ∧
      Sound lib inputs P value ∧ ¬Unfinished value ∧ value.scheduler.nextOrdinal = c.scheduler.nextOrdinal ∧
      value.candidates = c.candidates ∧
      (c.scheduler.nextOrdinal = totalProposals → value.scheduler.state = .complete) := by
  refine ⟨_, rfl, ?_, ?_, rfl, rfl, ?_⟩
  · apply (h.covers.end _ call.elapsedAtEnd).sound_withAttempt h.sound
    · split_ifs <;> simp [expectedTerminalOutcomes]
    · split_ifs <;> exact fun hs => by cases hs
    · split_ifs with hn
      · exact fun _ => hn
      · rintro (hs | hs) <;> cases hs
    · intro hn
      rw [if_pos hn]
      exact .inr rfl
  · rintro ⟨hrunning, -⟩
    revert hrunning
    change (if c.scheduler.nextOrdinal = totalProposals then SchedulerState.complete else .paused) = .running → False
    split_ifs <;> exact fun hs => by cases hs
  · intro hn
    change (if c.scheduler.nextOrdinal = totalProposals then SchedulerState.complete else .paused) = .complete
    rw [if_pos hn]

/-! ### A call -/

/-- Where a checkpoint stands. -/
def nextOf (c : Checkpoint) : ℕ := c.scheduler.nextOrdinal

variable (lib inputs) in
/-- The evaluator delivers a candidate for the ordinal that passes. -/
def Delivers (call : Call) (o : ℕ) : Prop := ∃ x, evaluateProposal lib inputs call o = .ok x

section Loop

variable {call : Call} {earlier : List Attempt} {start limit : ℕ}

theorem evaluateFrom_error {ordinal : ℕ} {ordinals : List ℕ} {a : Attempt} {c : Checkpoint} {e : String}
    (h : evaluateProposal lib inputs call ordinal = .error e) :
    evaluateFrom lib inputs call earlier limit (ordinal :: ordinals) a c = ([.work ordinal], .error e) := by
  simp only [evaluateFrom, h]

theorem evaluateFrom_ok {ordinal : ℕ} {ordinals : List ℕ} {a : Attempt} {c : Checkpoint} {x : Candidate}
    (h : evaluateProposal lib inputs call ordinal = .ok x) :
    evaluateFrom lib inputs call earlier limit (ordinal :: ordinals) a c =
      (.work ordinal ::
        .save (withCandidate lib c earlier (advanceAttempt a ordinal (call.elapsed ordinal)) ordinal x) ::
        (evaluateFrom lib inputs call earlier limit ordinals (advanceAttempt a ordinal (call.elapsed ordinal))
          (withCandidate lib c earlier (advanceAttempt a ordinal (call.elapsed ordinal)) ordinal x)).1,
      (evaluateFrom lib inputs call earlier limit ordinals (advanceAttempt a ordinal (call.elapsed ordinal))
        (withCandidate lib c earlier (advanceAttempt a ordinal (call.elapsed ordinal)) ordinal x)).2) := by
  simp only [evaluateFrom, h]

variable (lib inputs P) in
/-- What a part of a call does that goes on from `next`: its saves are sound, it works in order, and it saves an
unfinished checkpoint exactly if it gets to the last candidate, after `offset` saves and those of the candidates. -/
structure TraceSpec (reaches : Prop) (next offset : ℕ) (entries : List (Entry Checkpoint)) : Prop where
  sound : ∀ v ∈ saves entries, Sound lib inputs P v
  resumes : Resumes nextOf next entries
  unfinished : ∀ m, (∃ v ∈ (saves entries).take m, Unfinished v) ↔ reaches ∧ totalProposals - next + offset ≤ m

variable (lib inputs) in
/-- The loop gets to the last candidate. -/
def ReachesEnd (call : Call) (next limit : ℕ) : Prop :=
  next < totalProposals ∧ limit = totalProposals ∧ ∀ o, next ≤ o → o < totalProposals → Delivers lib inputs call o

/-- The loop is at its limit. -/
theorem InCall.traceSpec_finish {a : Attempt} {c : Checkpoint} (h : InCall lib inputs P earlier start a c) :
    TraceSpec lib inputs P (ReachesEnd lib inputs call c.scheduler.nextOrdinal c.scheduler.nextOrdinal)
      c.scheduler.nextOrdinal 0
      (evaluateFrom lib inputs call earlier c.scheduler.nextOrdinal [] a c).1 := by
  obtain ⟨value, hfinish, hsound, hfinished, hnext, -⟩ := h.finish call
  simp only [evaluateFrom, hfinish]
  refine ⟨by simpa using hsound, ⟨hnext.ge, trivial⟩, fun m => ?_⟩
  constructor
  · rintro ⟨v, hv, hunfinished⟩
    obtain rfl : v = value := by simpa using List.mem_of_mem_take hv
    exact absurd hunfinished hfinished
  · rintro ⟨⟨hlt, hlimit, -⟩, -⟩
    exact absurd hlimit hlt.ne

theorem unfinished_take_cons {v : Checkpoint} {entries : List (Entry Checkpoint)} (m : ℕ) :
    (∃ w ∈ (saves (.save v :: entries)).take m, Unfinished w) ↔
      0 < m ∧ (Unfinished v ∨ ∃ w ∈ (saves entries).take (m - 1), Unfinished w) := by
  cases m with
  | zero => simp
  | succ m => simp

/-- **The loop**, over `k` ordinals up to the limit. -/
theorem InCall.traceSpec (hP : ∀ o x, call.evaluator (inputs.proposals o) = .ok x → P o x) {a : Attempt}
    {c : Checkpoint} (h : InCall lib inputs P earlier start a c) {n : ℕ} (hn : c.scheduler.nextOrdinal = n) (k : ℕ)
    (hk : n + k = limit) (hlimit : limit ≤ totalProposals) :
    TraceSpec lib inputs P (ReachesEnd lib inputs call n limit) n 0
      (evaluateFrom lib inputs call earlier limit (List.range' n k) a c).1 := by
  induction k generalizing a c n with
  | zero =>
    obtain rfl : n = limit := hk
    subst hn
    exact h.traceSpec_finish
  | succ k ih =>
    subst hn
    have hlt : c.scheduler.nextOrdinal < totalProposals := by omega
    rw [List.range'_succ]
    cases hx : evaluateProposal lib inputs call c.scheduler.nextOrdinal with
    | error e =>
      rw [evaluateFrom_error hx]
      refine ⟨fun v hv => absurd hv List.not_mem_nil, ⟨rfl, trivial⟩, fun m => ?_⟩
      have hnot : ¬ReachesEnd lib inputs call c.scheduler.nextOrdinal limit := by
        rintro ⟨-, -, hall⟩
        obtain ⟨x, hx'⟩ := hall _ le_rfl hlt
        rw [hx] at hx'
        cases hx'
      simp [hnot]
    | ok x =>
      obtain ⟨hdelivered, hvalid⟩ := evaluateProposal_eq_ok.mp hx
      have hnext := h.withCandidate hlt hvalid (hP _ _ hdelivered) (call.elapsed c.scheduler.nextOrdinal)
      have hrest := ih hnext (n := c.scheduler.nextOrdinal + 1) rfl (by omega)
      rw [evaluateFrom_ok hx]
      refine ⟨?_, ⟨rfl, Nat.le_succ _, hrest.resumes⟩, fun m => ?_⟩
      · rw [saves_work, saves_save, List.forall_mem_cons]
        exact ⟨hnext.sound, hrest.sound⟩
      · rw [saves_work, unfinished_take_cons, hrest.unfinished (m - 1)]
        constructor
        · rintro ⟨hm, ⟨-, hend⟩ | ⟨⟨hlt', hend, hall⟩, hcount⟩⟩
          · change c.scheduler.nextOrdinal + 1 = totalProposals at hend
            refine ⟨⟨hlt, by omega, fun o hle ho => ?_⟩, by omega⟩
            obtain rfl : o = c.scheduler.nextOrdinal := by omega
            exact ⟨x, hx⟩
          · refine ⟨⟨hlt, hend, fun o hle ho => ?_⟩, by omega⟩
            obtain rfl | hne := eq_or_ne o c.scheduler.nextOrdinal
            · exact ⟨x, hx⟩
            · exact hall o (show c.scheduler.nextOrdinal + 1 ≤ o by omega) ho
        · rintro ⟨⟨-, hend, hall⟩, hcount⟩
          refine ⟨by omega, ?_⟩
          obtain hlast | hmore := (show c.scheduler.nextOrdinal + 1 ≤ totalProposals from hlt).eq_or_lt
          · exact .inl ⟨hnext.running, hlast⟩
          · exact .inr ⟨⟨hmore, hend, fun o hle ho => hall o (Nat.le_of_succ_le hle) ho⟩, by omega⟩

/-- If all candidates are delivered, the loop ends with the complete checkpoint. -/
theorem InCall.evaluateFrom_finishes (hP : ∀ o x, call.evaluator (inputs.proposals o) = .ok x → P o x) {a : Attempt}
    {c : Checkpoint} (h : InCall lib inputs P earlier start a c) {n : ℕ} (hn : c.scheduler.nextOrdinal = n) (k : ℕ)
    (hk : n + k = totalProposals) (hall : ∀ o, n ≤ o → o < totalProposals → Delivers lib inputs call o) :
    ∃ d, (evaluateFrom lib inputs call earlier totalProposals (List.range' n k) a c).2 = .ok d ∧
      Sound lib inputs P d ∧ d.scheduler.nextOrdinal = totalProposals := by
  induction k generalizing a c n with
  | zero =>
    have hnext : c.scheduler.nextOrdinal = totalProposals := hn.trans hk
    obtain ⟨value, hfinish, hsound, hfinished, hvalue, -⟩ := h.finish call
    rw [hnext] at hfinish
    refine ⟨value, ?_, hsound, hvalue.trans hnext⟩
    change (finishCall lib inputs call earlier totalProposals a c).2 = _
    rw [hfinish]
    exact hsound.validateCheckpoint_iff.mpr hfinished
  | succ k ih =>
    subst hn
    have hlt : c.scheduler.nextOrdinal < totalProposals := by omega
    obtain ⟨x, hx⟩ := hall _ le_rfl hlt
    obtain ⟨hdelivered, hvalid⟩ := evaluateProposal_eq_ok.mp hx
    have hnext := h.withCandidate hlt hvalid (hP _ _ hdelivered) (call.elapsed c.scheduler.nextOrdinal)
    rw [List.range'_succ, evaluateFrom_ok hx]
    exact ih hnext (n := c.scheduler.nextOrdinal + 1) rfl (by omega) fun o hle ho => hall o (Nat.le_of_succ_le hle) ho

end Loop

/-- One save before the others. -/
theorem TraceSpec.save {reaches : Prop} {n offset : ℕ} {entries : List (Entry Checkpoint)}
    (h : TraceSpec lib inputs P reaches n offset entries) {v : Checkpoint} (hv : Sound lib inputs P v)
    (hnext : nextOf v = n) (hfinished : ¬Unfinished v) :
    TraceSpec lib inputs P reaches n (offset + 1) (.save v :: entries) where
  sound := List.forall_mem_cons.mpr ⟨hv, h.sound⟩
  resumes := ⟨hnext.ge, by rw [hnext]; exact h.resumes⟩
  unfinished m := by
    rw [unfinished_take_cons, h.unfinished (m - 1)]
    constructor
    · rintro ⟨hm, hunfinished | ⟨hreaches, hcount⟩⟩
      · exact absurd hunfinished hfinished
      · exact ⟨hreaches, by omega⟩
    · rintro ⟨hreaches, hcount⟩
      exact ⟨by omega, .inr ⟨hreaches, by omega⟩⟩

/-- A part that saves nothing unfinished. -/
theorem traceSpec_nil {reaches : Prop} (hnot : ¬reaches) (n offset : ℕ) :
    TraceSpec lib inputs P reaches n offset [] where
  sound v hv := absurd hv List.not_mem_nil
  resumes := trivial
  unfinished m := by simp [hnot]

theorem callLimit_le (start : ℕ) (maxCandidates : Option ℤ) : callLimit start maxCandidates ≤ totalProposals :=
  min_le_left _ _

theorem le_callLimit {start : ℕ} (hstart : start ≤ totalProposals) (maxCandidates : Option ℤ) :
    start ≤ callLimit start maxCandidates := le_min hstart (Nat.le_add_right _ _)

variable (lib inputs) in
/-- A call on `c` gets to the last candidate, if it is not killed. -/
structure Completes (c : Checkpoint) (call : Call) : Prop where
  limit : ∀ limit ∈ call.maxCandidates, 0 ≤ limit
  notCancelled : call.cancelRequested = false
  reaches : ReachesEnd lib inputs call c.scheduler.nextOrdinal
    (callLimit c.scheduler.nextOrdinal call.maxCandidates)

section Call

variable {call : Call} {c : Checkpoint}

/-- **The attempt of a call.** -/
theorem Sound.runAttempt (h : Sound lib inputs P c) (hlt : c.scheduler.nextOrdinal < totalProposals)
    (hP : ∀ o x, call.evaluator (inputs.proposals o) = .ok x → P o x)
    (hlimit : ∀ limit ∈ call.maxCandidates, 0 ≤ limit) :
    TraceSpec lib inputs P (Completes lib inputs c call) c.scheduler.nextOrdinal 1
      (runAttempt lib inputs call c).1 := by
  unfold Codesign.runAttempt
  cases hcancel : call.cancelRequested with
  | true =>
    have hnot : ¬Completes lib inputs c call := by
      intro hc
      rw [hc.notCancelled] at hcancel
      cases hcancel
    exact (traceSpec_nil hnot _ 0).save (h.cancelled hlt hlimit) rfl (fun hu => hlt.ne hu.2)
  | false =>
    have hcall := h.inCall hlt hlimit
    have hle := le_callLimit hlt.le call.maxCandidates
    have hloop := hcall.traceSpec hP (n := c.scheduler.nextOrdinal) rfl _ (Nat.add_sub_cancel' hle) (callLimit_le _ _)
    have hiff : ReachesEnd lib inputs call c.scheduler.nextOrdinal
        (callLimit c.scheduler.nextOrdinal call.maxCandidates) ↔ Completes lib inputs c call :=
      ⟨fun hr => ⟨hlimit, hcancel, hr⟩, fun hc => hc.reaches⟩
    rw [propext hiff] at hloop
    exact hloop.save hcall.sound rfl (fun hu => hlt.ne hu.2)

/-- The saves that a call makes of an attempt that was left running. -/
def marks (c : Checkpoint) : ℕ := if lastOutcome c.scheduler.attempts = some .running then 1 else 0

/-- **A call**, on a checkpoint that it may go on from. -/
theorem Sound.advanceOpen (h : Sound lib inputs P c) (hopen : ¬Unfinished c)
    (hP : ∀ o x, call.evaluator (inputs.proposals o) = .ok x → P o x) :
    TraceSpec lib inputs P (Completes lib inputs c call) c.scheduler.nextOrdinal (1 + marks c)
      (advanceOpen lib inputs c call).1 := by
  unfold Codesign.advanceOpen
  split_ifs with hcomplete hnegative hrunning
  · exact traceSpec_nil (fun hc => hc.reaches.1.ne (h.complete hcomplete)) _ _
  · obtain ⟨limit, hmem, hneg⟩ := hnegative
    exact traceSpec_nil (fun hc => absurd (hc.limit limit hmem) (not_le.mpr hneg)) _ _
  · have hlt := h.lt_total hopen hcomplete
    have hlimit : ∀ limit ∈ call.maxCandidates, 0 ≤ limit :=
      fun limit hmem => not_lt.mp fun hneg => hnegative ⟨limit, hmem, hneg⟩
    have hmarked := h.markInterrupted hrunning hlt
    rw [marks, if_pos hrunning]
    have hspec := hmarked.runAttempt hlt hP hlimit
    have hiff : Completes lib inputs (Codesign.markInterrupted lib c) call ↔ Completes lib inputs c call :=
      ⟨fun hc => ⟨hc.limit, hc.notCancelled, hc.reaches⟩, fun hc => ⟨hc.limit, hc.notCancelled, hc.reaches⟩⟩
    rw [propext hiff] at hspec
    exact hspec.save hmarked rfl (fun hu => hlt.ne hu.2)
  · have hlimit : ∀ limit ∈ call.maxCandidates, 0 ≤ limit :=
      fun limit hmem => not_lt.mp fun hneg => hnegative ⟨limit, hmem, hneg⟩
    rw [marks, if_neg hrunning]
    exact h.runAttempt (h.lt_total hopen hcomplete) hP hlimit

/-- A call that is not interrupted ends with the complete checkpoint if all candidates are delivered. -/
theorem advanceBatch_finishes (hP : ∀ o x, call.evaluator (inputs.proposals o) = .ok x → P o x)
    (hmax : call.maxCandidates = none) (hcancel : call.cancelRequested = false)
    (hall : ∀ o, o < totalProposals → Delivers lib inputs call o) :
    ∃ d, (advanceBatch lib (.ok inputs) none call).2 = .ok d ∧ Sound lib inputs P d ∧
      d.scheduler.nextOrdinal = totalProposals := by
  have hnew : Sound lib inputs P (newCheckpoint lib inputs) := sound_new
  have hlimit : ∀ limit ∈ call.maxCandidates, 0 ≤ limit := by simp [hmax]
  have hcall := hnew.inCall (show 0 < totalProposals by decide) hlimit
  obtain ⟨d, hd, hsound, hnext⟩ :=
    hcall.evaluateFrom_finishes hP (n := 0) rfl totalProposals (by decide) fun o _ ho => hall o ho
  refine ⟨d, ?_, hsound, hnext⟩
  rw [← hd]
  simp only [advanceBatch, openCheckpoint, Codesign.advanceOpen]
  rw [if_neg (by simp [newCheckpoint, newScheduler, withHeader]), if_neg (by simp [hmax]), if_neg]
  · simp only [Codesign.runAttempt, hcancel, hmax]
    rfl
  · simp [newCheckpoint, newScheduler, withHeader, lastOutcome]

end Call

/-! ### Histories -/

/-- A call, and the save at which it is killed, counted from 0. A call whose evaluator raises ends on its own. -/
structure BatchStep where
  call : Call
  kill : Option ℕ

variable (lib) in
/-- What a call of a history does. -/
def runStep (validated : Except String BatchInputs) (last : Option Checkpoint) (step : BatchStep) :
    List (Entry Checkpoint) := cut step.kill (advanceBatch lib validated last step.call).1

variable (lib) in
/-- All that the calls do, from an empty disk. -/
def batchHistory (validated : Except String BatchInputs) (steps : List BatchStep) : List (Entry Checkpoint) :=
  history (runStep lib validated) none steps

variable (lib inputs) in
/-- A call that gets to the last candidate before it is killed: all ordinals from where the last checkpoint stands
are within its limit and are delivered, and as many saves are left to it. -/
structure CommitsLast (last : Option Checkpoint) (step : BatchStep) : Prop where
  completes : Completes lib inputs (last.getD (newCheckpoint lib inputs)) step.call
  survives : ∀ k ∈ step.kill,
    totalProposals - nextOf (last.getD (newCheckpoint lib inputs)) + marks (last.getD (newCheckpoint lib inputs)) ≤ k

theorem openCheckpoint_unfinished {c : Checkpoint} (h : Sound lib inputs P c) (hc : Unfinished c) :
    ∃ e, openCheckpoint lib inputs (some c) = .error e := by
  have hrefused : validateCheckpoint lib inputs c ≠ .ok c := fun hok => h.validateCheckpoint_iff.mp hok hc
  change ∃ e, validateCheckpoint lib inputs c = .error e
  cases hv : validateCheckpoint lib inputs c with
  | error e => exact ⟨e, rfl⟩
  | ok d =>
    have hsame : d = c := by
      simp only [validateCheckpoint, check_eq_ok, ite_error_eq_ok] at hv
      exact (Except.ok.inj hv.2.2.2.2.2.2.2).symm
    rw [hsame] at hv
    exact absurd hv hrefused

/-- **A call of a history**: before it is killed, it does what `TraceSpec` says. -/
theorem traceSpec_advanceBatch {last : Option Checkpoint} (hlast : ∀ c ∈ last, Sound lib inputs P c) {call : Call}
    (hP : ∀ o x, call.evaluator (inputs.proposals o) = .ok x → P o x) :
    TraceSpec lib inputs P (Completes lib inputs (last.getD (newCheckpoint lib inputs)) call) (stand nextOf last)
      (1 + marks (last.getD (newCheckpoint lib inputs))) (advanceBatch lib (.ok inputs) last call).1 := by
  cases last with
  | none =>
    have hnew : Sound lib inputs P (newCheckpoint lib inputs) := sound_new
    exact hnew.advanceOpen (fun hu => absurd hu.1 (by simp [newCheckpoint, newScheduler, withHeader])) hP
  | some c =>
    have hc := hlast c rfl
    by_cases hu : Unfinished c
    · obtain ⟨e, he⟩ := openCheckpoint_unfinished hc hu
      simp only [advanceBatch, he]
      exact traceSpec_nil (fun hcompletes => hcompletes.reaches.1.ne hu.2) _ _
    · have hopen : openCheckpoint lib inputs (some c) = .ok c := hc.validateCheckpoint_iff.mpr hu
      simp only [advanceBatch, hopen]
      exact hc.advanceOpen hu hP

theorem sound_runStep {last : Option Checkpoint} (hlast : ∀ c ∈ last, Sound lib inputs P c) {step : BatchStep}
    (hP : ∀ o x, step.call.evaluator (inputs.proposals o) = .ok x → P o x) :
    ∀ c ∈ saves (runStep lib (.ok inputs) last step), Sound lib inputs P c := fun c hc =>
  (traceSpec_advanceBatch hlast hP).sound c (mem_saves_of_mem_saves_cut hc)

theorem resumes_runStep {last : Option Checkpoint} (hlast : ∀ c ∈ last, Sound lib inputs P c) {step : BatchStep}
    (hP : ∀ o x, step.call.evaluator (inputs.proposals o) = .ok x → P o x) :
    Resumes nextOf (stand nextOf last) (runStep lib (.ok inputs) last step) :=
  (traceSpec_advanceBatch hlast hP).resumes.cut step.kill

/-- **Where the defect is met**: a call saves an unfinished checkpoint exactly if it gets to the last candidate. -/
theorem unfinished_runStep_iff {last : Option Checkpoint} (hlast : ∀ c ∈ last, Sound lib inputs P c) {step : BatchStep}
    (hP : ∀ o x, step.call.evaluator (inputs.proposals o) = .ok x → P o x) :
    (∃ v ∈ saves (runStep lib (.ok inputs) last step), Unfinished v) ↔ CommitsLast lib inputs last step := by
  have hspec := traceSpec_advanceBatch hlast hP
  have hnext : stand nextOf last = nextOf (last.getD (newCheckpoint lib inputs)) := by cases last <;> rfl
  rw [hnext] at hspec
  unfold runStep
  cases hkill : step.kill with
  | none =>
    have htake := hspec.unfinished ((saves (advanceBatch lib (.ok inputs) last step.call).1).length +
      (totalProposals + (1 + marks (last.getD (newCheckpoint lib inputs)))))
    rw [List.take_of_length_le (Nat.le_add_right _ _)] at htake
    rw [cut, htake]
    exact ⟨fun h => ⟨h.1, by simp [hkill]⟩, fun h => ⟨h.completes, by omega⟩⟩
  | some k =>
    rw [cut, saves_cutAfter, hspec.unfinished (k + 1)]
    constructor
    · rintro ⟨hcompletes, hcount⟩
      refine ⟨hcompletes, fun j hj => ?_⟩
      obtain rfl : k = j := by simpa [hkill] using hj
      omega
    · intro h
      have := h.survives k hkill
      exact ⟨h.completes, by omega⟩

/-- What is asked of a history: every saved checkpoint can be loaded, its candidates are the ordinals before it, once
each, no saved ordinal is evaluated again, and with a deterministic evaluator a complete batch is the one that a
single call makes. -/
structure RecoversAll (lib : BatchLibrary) (validated : Except String BatchInputs) (steps : List BatchStep) : Prop where
  accepted : ∀ inputs, validated = .ok inputs → ∀ c ∈ saves (batchHistory lib validated steps),
    validateCheckpoint lib inputs c = .ok c
  contiguous : ∀ c ∈ saves (batchHistory lib validated steps), c.candidates.map (·.ordinal) = List.range (nextOf c)
  fresh : ∀ before o after, batchHistory lib validated steps = before ++ .work o :: after →
    ∀ c ∈ saves before, o ∉ c.candidates.map (·.ordinal)
  deterministic : ∀ f, (∀ step ∈ steps, step.call.evaluator = f) →
    ∀ c ∈ saves (batchHistory lib validated steps), c.scheduler.state = .complete →
      ∀ call : Call, call.evaluator = f → call.maxCandidates = none → call.cancelRequested = false →
        ∃ d, (advanceBatch lib validated none call).2 = .ok d ∧ d.candidates = c.candidates ∧ d.pareto = c.pareto ∧
          d.finalists = c.finalists

/-- A payload that is not valid saves nothing. -/
theorem batchHistory_error (e : String) (steps : List BatchStep) : batchHistory lib (.error e) steps = [] := by
  have hrun : ∀ last step, runStep lib (.error e) last step = [] := by
    intro last step
    unfold runStep
    cases step.kill <;> rfl
  unfold batchHistory
  generalize (none : Option Checkpoint) = last
  induction steps generalizing last with
  | nil => rfl
  | cons step steps ih => rw [history, hrun, ih]; rfl

theorem sound_batchHistory {steps : List BatchStep}
    (hP : ∀ step ∈ steps, ∀ o x, step.call.evaluator (inputs.proposals o) = .ok x → P o x) :
    ∀ c ∈ saves (batchHistory lib (.ok inputs) steps), Sound lib inputs P c :=
  forall_saves_history _ (fun c hc => absurd hc (Option.not_mem_none c)) fun step hstep _ hlast =>
    sound_runStep hlast (hP step hstep)

theorem resumes_batchHistory (steps : List BatchStep) : Resumes nextOf 0 (batchHistory lib (.ok inputs) steps) :=
  resumes_history (I := Sound lib inputs fun _ _ => True) (fun c hc => absurd hc (Option.not_mem_none c))
    (fun _ _ _ hlast => sound_runStep hlast fun _ _ _ => trivial)
    fun _ _ _ hlast => resumes_runStep hlast fun _ _ _ => trivial

/-! ### What recovery keeps -/

/-- The evidence of a checkpoint with all candidates is that of its candidates. -/
theorem Sound.evidence {c : Checkpoint} (h : Sound lib inputs P c) (hnext : c.scheduler.nextOrdinal = totalProposals) :
    c.pareto = paretoRefs c.candidates ∧ c.finalists = finalists (paretoRefs c.candidates) := by
  have hpareto := congrArg Checkpoint.pareto h.derived
  have hfinalists := congrArg Checkpoint.finalists h.derived
  simp only [refresh, derive, hnext, decide_true, if_true] at hpareto hfinalists
  exact ⟨hpareto.symm, hfinalists.symm⟩

/-- With a deterministic evaluator the candidates are determined. -/
theorem Sound.candidates_unique {f : Proposal → Except String Candidate} {c d : Checkpoint}
    (hc : Sound lib inputs (fun o x => f (inputs.proposals o) = .ok x) c)
    (hd : Sound lib inputs (fun o x => f (inputs.proposals o) = .ok x) d)
    (hnext : d.scheduler.nextOrdinal = c.scheduler.nextOrdinal) : d.candidates = c.candidates := by
  have hcs := hc.evaluated
  have hds := hd.evaluated
  rw [hnext] at hds
  unfold Evaluated at hcs hds
  generalize List.range c.scheduler.nextOrdinal = ordinals at hcs hds
  generalize c.candidates = xs at hcs
  generalize d.candidates = ys at hds
  induction hcs generalizing ys with
  | nil => exact List.forall₂_nil_left_iff.mp hds
  | cons hx _ ih =>
    cases hds with
    | cons hy hds => rw [ih _ hds, Except.ok.inj (hy.2.symm.trans hx.2)]

/-- What was evaluated is delivered again by the same evaluator. -/
theorem Sound.delivers {f : Proposal → Except String Candidate} {c : Checkpoint}
    (h : Sound lib inputs (fun o x => f (inputs.proposals o) = .ok x) c) {call : Call} (hcall : call.evaluator = f)
    {o : ℕ} (ho : o < c.scheduler.nextOrdinal) : Delivers lib inputs call o := by
  have hevaluated := h.evaluated
  have hlength : o < c.candidates.length := by rw [hevaluated.length]; exact ho
  have hx := List.Forall₂.get hevaluated (by rw [List.length_range]; exact ho) hlength
  rw [List.get_eq_getElem, List.getElem_range] at hx
  exact ⟨_, evaluateProposal_eq_ok.mpr ⟨by rw [hcall]; exact hx.2, hx.1⟩⟩

/-- **Interruptions do not matter**: with a deterministic evaluator a complete batch has the candidates, the Pareto
front and the finalists of one call that is not interrupted. -/
theorem complete_eq_uninterrupted {f : Proposal → Except String Candidate} {steps : List BatchStep}
    (hf : ∀ step ∈ steps, step.call.evaluator = f) {c : Checkpoint}
    (hc : c ∈ saves (batchHistory lib (.ok inputs) steps)) (hcomplete : c.scheduler.state = .complete) {call : Call}
    (hcall : call.evaluator = f) (hmax : call.maxCandidates = none) (hcancel : call.cancelRequested = false) :
    ∃ d, (advanceBatch lib (.ok inputs) none call).2 = .ok d ∧ d.candidates = c.candidates ∧ d.pareto = c.pareto ∧
      d.finalists = c.finalists := by
  have hsound : Sound lib inputs (fun o x => f (inputs.proposals o) = .ok x) c :=
    sound_batchHistory (fun step hstep o x hx => by rw [← hf step hstep]; exact hx) c hc
  have hnext := hsound.complete hcomplete
  have hdelivers : ∀ o, o < totalProposals → Delivers lib inputs call o :=
    fun o ho => hsound.delivers hcall (ho.trans_eq hnext.symm)
  obtain ⟨d, hd, hdsound, hdnext⟩ := advanceBatch_finishes (P := fun o x => f (inputs.proposals o) = .ok x)
    (fun o x hx => by rw [← hcall]; exact hx) hmax hcancel hdelivers
  have hsame := hsound.candidates_unique hdsound (hdnext.trans hnext.symm)
  obtain ⟨hcpareto, hcfinalists⟩ := hsound.evidence hnext
  obtain ⟨hdpareto, hdfinalists⟩ := hdsound.evidence hdnext
  exact ⟨d, hd, hsame, by rw [hdpareto, hcpareto, hsame], by rw [hdfinalists, hcfinalists, hsame]⟩

/-- The candidates of a saved checkpoint are the ordinals before it. -/
theorem contiguous_batchHistory (validated : Except String BatchInputs) (steps : List BatchStep) :
    ∀ c ∈ saves (batchHistory lib validated steps), c.candidates.map (·.ordinal) = List.range (nextOf c) := by
  intro c hc
  cases validated with
  | error e =>
    rw [batchHistory_error] at hc
    exact absurd hc List.not_mem_nil
  | ok inputs =>
    have hsound := sound_batchHistory (P := fun _ _ => True) (fun _ _ _ _ _ => trivial) c hc
    exact hsound.evaluated.ordinals

/-- No call evaluates an ordinal that was saved before. -/
theorem fresh_batchHistory (validated : Except String BatchInputs) (steps : List BatchStep)
    {before after : List (Entry Checkpoint)} {o : ℕ}
    (h : batchHistory lib validated steps = before ++ .work o :: after) :
    ∀ c ∈ saves before, o ∉ c.candidates.map (·.ordinal) := by
  intro c hc
  have hmem : c ∈ saves (batchHistory lib validated steps) := by
    rw [h, saves_append]
    exact List.mem_append_left _ hc
  rw [contiguous_batchHistory validated steps c hmem, List.mem_range, not_lt]
  cases validated with
  | error e =>
    rw [batchHistory_error] at hmem
    exact absurd hmem List.not_mem_nil
  | ok inputs =>
    have hresumes : Resumes nextOf 0 (batchHistory lib (.ok inputs) steps) := resumes_batchHistory steps
    rw [h] at hresumes
    exact hresumes.le_work c hc

/-- The saved checkpoints are all accepted exactly if no call gets to the last candidate. -/
theorem accepted_batchHistory_iff (steps : List BatchStep) :
    (∀ c ∈ saves (batchHistory lib (.ok inputs) steps), validateCheckpoint lib inputs c = .ok c) ↔
      ∀ p ∈ starts (runStep lib (.ok inputs)) none steps, ¬CommitsLast lib inputs p.1 p.2 := by
  have hsound : ∀ c ∈ saves (batchHistory lib (.ok inputs) steps), Sound lib inputs (fun _ _ => True) c :=
    sound_batchHistory fun _ _ _ _ _ => trivial
  have hstarts : ∀ p ∈ starts (runStep lib (.ok inputs)) none steps,
      p.2 ∈ steps ∧ ∀ c ∈ p.1, Sound lib inputs (fun _ _ => True) c :=
    forall_mem_starts _ (fun c hc => absurd hc (Option.not_mem_none c)) fun _ _ _ hlast =>
      sound_runStep hlast fun _ _ _ => trivial
  constructor
  · intro haccepted p hp hcommits
    obtain ⟨v, hv, hunfinished⟩ :=
      (unfinished_runStep_iff (hstarts p hp).2 fun _ _ _ => trivial).mpr hcommits
    have hmem : v ∈ saves (batchHistory lib (.ok inputs) steps) := (mem_saves_history _).mpr ⟨p, hp, hv⟩
    exact (hsound v hmem).validateCheckpoint_iff.mp (haccepted v hmem) hunfinished
  · intro hnone c hc
    refine (hsound c hc).validateCheckpoint_iff.mpr fun hunfinished => ?_
    obtain ⟨p, hp, hv⟩ := (mem_saves_history _).mp hc
    exact hnone p hp
      ((unfinished_runStep_iff (hstarts p hp).2 fun _ _ _ => trivial).mp ⟨c, hv, hunfinished⟩)

/-- **Recovery of the batch**: a history has all that is asked of it exactly if none of its calls gets to the last
candidate. -/
theorem batch_recovers_iff (lib : BatchLibrary) (validated : Except String BatchInputs) (steps : List BatchStep) :
    RecoversAll lib validated steps ↔
      ∀ inputs, validated = .ok inputs →
        ∀ p ∈ starts (runStep lib validated) none steps, ¬CommitsLast lib inputs p.1 p.2 := by
  constructor
  · rintro h inputs rfl
    exact (accepted_batchHistory_iff steps).mp (h.accepted inputs rfl)
  · intro hnone
    refine ⟨?_, contiguous_batchHistory validated steps, fun _ _ _ h => fresh_batchHistory validated steps h, ?_⟩
    · rintro inputs rfl
      exact (accepted_batchHistory_iff steps).mpr (hnone inputs rfl)
    · intro f hf c hc hcomplete call hcall hmax hcancel
      cases validated with
      | error e =>
        rw [batchHistory_error] at hc
        exact absurd hc List.not_mem_nil
      | ok inputs => exact complete_eq_uninterrupted hf hc hcomplete hcall hmax hcancel

/-! ### A batch that is evaluated in one call -/

/-- Numbers as they are, empty texts, and evidence that always passes. -/
def plainLibrary : BatchLibrary where
  Total := ℚ
  sum := List.sum
  add := (· + ·)
  runtimeHours _ := ""
  round _ x := x
  fixed3 _ := ""
  sha _ := ""
  checkpointSha _ := ""
  checkEvidence _ _ _ _ := .ok ()

def plainInputs : BatchInputs where
  modelId := "glider"
  contractHash := "c0ffee"
  planSha256 := "5eed"
  sourceRevision := .null
  sourceRevisionRecorded := .bool false
  dependencyManifestSha256 := .null
  proposalRuntimeAuthority := ⟨"a1", .null⟩
  catalogChoiceAuthority := ⟨"a2", "a3", .null⟩
  manifold := .null
  constraints := ⟨1500, 4, 4, 1 / 2⟩
  algorithms := ⟨7, .null⟩
  proposals o := ⟨"proposal", o, "cma-es", ⟨"b1", "r1", .null⟩, .null, "d1", "d2"⟩
  proposals_ordinal _ := rfl

def plainNative : NativeEvaluation := ⟨⟨true, some 900, some 6, 1, .null⟩, none, .null⟩

/-- One call without a limit, whose evaluator returns what `_candidate_expected` builds. -/
def plainCall : Call where
  maxCandidates := none
  cancelRequested := false
  evaluator proposal := candidateExpected plainLibrary plainInputs proposal plainNative 12 none 0
  elapsed _ := 0
  elapsedAtEnd := 0

/-- All candidates of the call pass. -/
theorem delivers_plainCall (o : ℕ) : Delivers plainLibrary plainInputs plainCall o := by
  refine ⟨_, evaluateProposal_eq_ok.mpr ⟨rfl, ?_⟩⟩
  simp [validateCandidate, candidateExpected, candidateRecord, tierRecords, finiteNumber, plainLibrary, plainNative,
    bind, Except.bind]

/-- The batch that one call evaluates from end to end saves a checkpoint that cannot be loaded. -/
theorem uninterrupted_batch_unloadable : ¬RecoversAll plainLibrary (.ok plainInputs) [⟨plainCall, none⟩] := by
  intro h
  have hreaches : ReachesEnd plainLibrary plainInputs plainCall 0 (callLimit 0 none) :=
    ⟨by decide, rfl, fun o _ _ => delivers_plainCall o⟩
  have hcompletes : Completes plainLibrary plainInputs (newCheckpoint plainLibrary plainInputs) plainCall :=
    ⟨by simp [plainCall], rfl, hreaches⟩
  exact (accepted_batchHistory_iff _).mp (h.accepted plainInputs rfl) (none, ⟨plainCall, none⟩) List.mem_cons_self
    ⟨hcompletes, by simp⟩

end Forge.Codesign
