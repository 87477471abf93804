import Forge.Data.Thread
import Mathlib.Algebra.BigOperators.Group.List.Basic
import Mathlib.Algebra.Order.Field.Rat
import Mathlib.Data.List.Nodup
import Mathlib.Tactic.Linarith
import Mathlib.Tactic.Ring

/-!
# Stepping the physics worker

The studio steps its physics in a worker (`rapierSession.ts`, `rapier.worker.ts`). A `RapierWorkerSession` posts
one step at a time; while it waits for the answer, further frame times add up in `queuedDt`, and are posted as
one step when the answer comes. A caller of `step` gets a promise, which the answer settles. Here the session
begins after `create`, the two sides and the messages between them are one `State`, and an `Event` is what the
page, the worker or the browser does next; so every order of these is a list of events.

The **key result** is `rapier_session_sound`: unless the browser reports a failure of the worker itself or
refuses a message, at most one step is under way, no frame time is lost or stepped twice, and every promise is
settled once, by the answer to its own step. `failure_mixes_answers` shows what such a failure does.

Times are exact rationals. The core of the worker is a parameter: `advance` is `session.step` with the copy of
the poses behind it, and answers with a summary or a message.
-/

namespace Forge.Studio.RapierWorker

variable {σ R : Type}

/-! ### The worker -/

/-- `RapierWorkerRequest`, after `create`. -/
inductive Request where
  | step (dtS : ℚ)
  | dispose
deriving DecidableEq

/-- `RapierWorkerResponse`: `stepped` with its summary, or `error` with its message. -/
abbrev Response (R : Type) : Type := Except String R

/-- `handleMessage`. The worker has no session once it has handled `dispose`. -/
def handleMessage (advance : σ → ℚ → σ × Response R) : Option σ → Request → Option σ × List (Response R)
  | none, .step _ => (none, [])
  | some session, .step dtS => (some (advance session dtS).1, [(advance session dtS).2])
  | _, .dispose => (none, [])

/-- What the core answers to these steps, from the session `session` on. -/
def outcomes (advance : σ → ℚ → σ × Response R) (session : σ) : List ℚ → List (Response R)
  | [] => []
  | dtS :: rest => (advance session dtS).2 :: outcomes advance (advance session dtS).1 rest

/-! ### The session -/

/-- `RapierWorkerSession`. The resolvers of `pendingStep` are those of the `step` call with this number, or the
idle ones of `advance`. -/
structure RapierWorkerSession where
  disposed : Bool
  pendingStep : Option (Option ℕ)
  lastWorkerMs : ℚ
  workerAccumMs : ℚ
  workerSamples : ℕ
  queuedDt : ℚ

def RapierWorkerSession.new : RapierWorkerSession where
  disposed := false
  pendingStep := none
  lastWorkerMs := 0
  workerAccumMs := 0
  workerSamples := 0
  queuedDt := 0

/-- What has happened: the code keeps none of this. -/
structure History (R : Type) where
  /-- Calls of `step`. -/
  calls : ℕ
  /-- The promises of these calls that were settled. -/
  settled : List (ℕ × Response R)
  /-- The times that `step` and `advance` took on. -/
  accepted : List ℚ
  /-- The steps that were posted, with the call that waits for the answer. -/
  posted : List (ℚ × Option ℕ)
  /-- The answers that were read. -/
  answers : List (Response R)

structure State (σ R : Type) where
  session : RapierWorkerSession
  thread : Thread (Option σ) Request (Response R)
  history : History R

def State.start (core : σ) : State σ R where
  session := .new
  thread := .start (some core)
  history := { calls := 0, settled := [], accepted := [], posted := [], answers := [] }

/-- The resolvers `pending` are called. -/
def State.settle (s : State σ R) (pending : Option ℕ) (outcome : Response R) : State σ R :=
  match pending with
  | none => s
  | some call => { s with history := { s.history with settled := s.history.settled ++ [(call, outcome)] } }

/-- `rejectStep` -/
def State.rejectStep (s : State σ R) (message : String) : State σ R :=
  match s.session.pendingStep with
  | none => s
  | some pending =>
    { s with session := { s.session with pendingStep := none } }.settle pending (.error message)

/-- `dispatchStep`. `thrown` is what `postMessage` throws, if it does. -/
def State.dispatchStep (s : State σ R) (dtS : ℚ) (pending : Option ℕ) (thrown : Option String) : State σ R :=
  let s := { s with session := { s.session with pendingStep := some pending } }
  match thrown with
  | none =>
    { s with thread := s.thread.post (.step dtS)
             history := { s.history with posted := s.history.posted ++ [(dtS, pending)] } }
  | some message => s.rejectStep message

/-- A time that the session takes on. -/
def State.accept (s : State σ R) (dtS : ℚ) : State σ R :=
  { s with history := { s.history with accepted := s.history.accepted ++ [dtS] } }

/-- `step` -/
def State.step (s : State σ R) (dtS : ℚ) (thrown : Option String) : State σ R :=
  let call := s.history.calls
  let s := { s with history := { s.history with calls := call + 1 } }
  if s.session.disposed then s.settle (some call) (.error "Rapier worker session has been disposed")
  else if s.session.pendingStep.isSome then s.settle (some call) (.error "Rapier worker step already pending")
  else (s.accept dtS).dispatchStep dtS (some call) thrown

/-- `advance` -/
def State.advance (s : State σ R) (dtS : ℚ) (thrown : Option String) : State σ R :=
  if s.session.disposed || dtS ≤ 0 then s
  else if s.session.pendingStep.isSome then
    { s.accept dtS with session := { s.session with queuedDt := s.session.queuedDt + dtS } }
  else (s.accept dtS).dispatchStep dtS none thrown

/-- `drainPerf`; what it returns are the fields that it clears. -/
def State.drainPerf (s : State σ R) : State σ R :=
  { s with session := { s.session with workerAccumMs := 0, workerSamples := 0 } }

/-- `dispose` -/
def State.dispose (s : State σ R) : State σ R :=
  if s.session.disposed then s
  else { s with session := { s.session with disposed := true }, thread := s.thread.post .dispose }.rejectStep
    "Rapier worker session disposed"

/-- The first half of `handleResponse` for `stepped`: the step is measured and its promise resolved. -/
def State.stepped (s : State σ R) (message : Response R) (workerMs : ℚ) : State σ R :=
  { s with session :=
    { s.session with lastWorkerMs := workerMs, workerAccumMs := s.session.workerAccumMs + workerMs
                     workerSamples := s.session.workerSamples + 1, pendingStep := none } }.settle
    s.session.pendingStep.join message

/-- `handleResponse` -/
def State.handleResponse (s : State σ R) (message : Response R) (workerMs : ℚ) (thrown : Option String) : State σ R :=
  match message with
  | .ok _ =>
    let s := s.stepped message workerMs
    if !s.session.disposed && 0 < s.session.queuedDt then
      { s with session := { s.session with queuedDt := 0 } }.dispatchStep s.session.queuedDt none thrown
    else s
  | .error text => s.rejectStep text

/-- What can happen next. -/
inductive Event where
  | step (dtS : ℚ) (thrown : Option String)
  | advance (dtS : ℚ) (thrown : Option String)
  | drainPerf
  | dispose
  /-- The worker handles its next message. -/
  | serve
  /-- The page gets the next answer; handling it took the worker `workerMs`. -/
  | respond (workerMs : ℚ) (thrown : Option String)
  /-- `worker.onerror` -/
  | fail (message : String)
  /-- `worker.terminate` of `dispose` takes effect. -/
  | halt

variable (advance : σ → ℚ → σ × Response R)

def State.exec (s : State σ R) : Event → State σ R
  | .step dtS thrown => s.step dtS thrown
  | .advance dtS thrown => s.advance dtS thrown
  | .drainPerf => s.drainPerf
  | .dispose => s.dispose
  | .serve => { s with thread := s.thread.serve (handleMessage advance) }
  | .respond workerMs thrown =>
    match s.thread.read with
    | none => s
    | some (message, thread) =>
      { s with thread, history := { s.history with answers := s.history.answers ++ [message] } }.handleResponse
        message workerMs thrown
  | .fail message => s.rejectStep message
  | .halt => if s.session.disposed then { s with thread := { s.thread with inbox := [], outbox := [] } } else s

/-- The state after these events. -/
def State.after (s : State σ R) (events : List Event) : State σ R := events.foldl (State.exec advance) s

/-- The worker does not fail as a whole, and `postMessage` does not throw. -/
def Event.Regular : Event → Prop
  | .step _ thrown => thrown = none
  | .advance _ thrown => thrown = none
  | .respond _ thrown => thrown = none
  | .fail _ => False
  | _ => True

/-! ### Promises -/

/-- Of the promises `0, …, calls - 1` all are settled once, save `pending`. -/
structure Promises (calls : ℕ) (settled : List ℕ) (pending : Option ℕ) : Prop where
  once : settled.Nodup
  all (i : ℕ) : i < calls ↔ i ∈ settled ∨ pending = some i
  open_ (i : ℕ) : pending = some i → i ∉ settled

namespace Promises

variable {calls : ℕ} {settled : List ℕ} {pending : Option ℕ}

theorem start : Promises 0 [] none := ⟨List.nodup_nil, by simp, by simp⟩

/-- A call that is refused at once. -/
theorem refuse (h : Promises calls settled pending) : Promises (calls + 1) (settled ++ [calls]) pending := by
  have hnew : calls ∉ settled := fun hmem => absurd ((h.all calls).mpr (.inl hmem)) (lt_irrefl _)
  refine ⟨?_, fun i => ?_, fun i hi => ?_⟩
  · rw [List.nodup_append]
    refine ⟨h.once, List.nodup_singleton _, fun a ha b hb => ?_⟩
    rw [List.mem_singleton.mp hb]
    exact fun heq => hnew (heq ▸ ha)
  · rw [Nat.lt_succ_iff_lt_or_eq, h.all i, List.mem_append, List.mem_singleton]
    exact or_right_comm
  · have hlt : i < calls := (h.all i).mpr (.inr hi)
    simp only [List.mem_append, List.mem_singleton, not_or]
    exact ⟨h.open_ i hi, by omega⟩

/-- A call that has to wait. -/
theorem call (h : Promises calls settled none) : Promises (calls + 1) settled (some calls) := by
  refine ⟨h.once, fun i => ?_, fun i hi hmem => ?_⟩
  · rw [Nat.lt_succ_iff_lt_or_eq, h.all i]
    simp [eq_comm]
  · cases hi
    exact absurd ((h.all calls).mpr (.inl hmem)) (lt_irrefl _)

/-- The pending promise is settled, if there is one. -/
theorem settle (h : Promises calls settled pending) : Promises calls (settled ++ pending.toList) none := by
  cases pending with
  | none => simpa using h
  | some c =>
    refine ⟨?_, fun i => ?_, by simp⟩
    · rw [List.nodup_append]
      refine ⟨h.once, List.nodup_singleton _, fun a ha b hb => ?_⟩
      rw [List.mem_singleton.mp hb]
      exact fun heq => h.open_ c rfl (heq ▸ ha)
    · rw [h.all i]
      simp [eq_comm]

end Promises

/-! ### The operations in one equation each -/

theorem settle_eq (s : State σ R) (pending : Option ℕ) (outcome : Response R) :
    s.settle pending outcome = { s with history := { s.history with
      settled := s.history.settled ++ pending.toList.map fun call => (call, outcome) } } := by
  cases pending <;> simp [State.settle]

theorem rejectStep_eq (s : State σ R) (message : String) :
    s.rejectStep message = { s with
      session := { s.session with pendingStep := none }
      history := { s.history with settled :=
        s.history.settled ++ s.session.pendingStep.join.toList.map fun call => (call, .error message) } } := by
  unfold State.rejectStep
  cases hp : s.session.pendingStep with
  | none =>
    obtain ⟨session, thread, history⟩ := s
    obtain ⟨disposed, pendingStep, lastWorkerMs, workerAccumMs, workerSamples, queuedDt⟩ := session
    obtain rfl : pendingStep = none := hp
    simp
  | some pending => simp [settle_eq]

/-! ### Answers -/

variable {advance}

theorem handleAll_step (core : σ) (dts : List ℚ) :
    ∃ core', Thread.handleAll (handleMessage advance) (some core) (dts.map .step) =
      (some core', outcomes advance core dts) := by
  induction dts generalizing core with
  | nil => exact ⟨core, rfl⟩
  | cons dtS dts ih =>
    obtain ⟨core', h⟩ := ih (advance core dtS).1
    exact ⟨core', by simp [Thread.handleAll, handleMessage, outcomes, h]⟩

@[simp] theorem length_outcomes (core : σ) (dts : List ℚ) : (outcomes advance core dts).length = dts.length := by
  induction dts generalizing core with
  | nil => rfl
  | cons dtS dts ih => simp [outcomes, ih]

theorem outcomes_append (core : σ) (dts more : List ℚ) :
    outcomes advance core dts <+: outcomes advance core (dts ++ more) := by
  induction dts generalizing core with
  | nil => exact List.nil_prefix
  | cons dtS dts ih => exact (List.prefix_cons_inj _).mpr (ih _)

/-- The messages for the posted steps. -/
def requests (posted : List (ℚ × Option ℕ)) : List Request := posted.map fun p => .step p.1

theorem handleAll_requests (core : σ) (posted : List (ℚ × Option ℕ)) :
    (Thread.handleAll (handleMessage advance) (some core) (requests posted)).2 =
      outcomes advance core (posted.map Prod.fst) := by
  obtain ⟨core', h⟩ : ∃ core', Thread.handleAll (handleMessage advance) (some core) _ = (some core', _) :=
    handleAll_step core (posted.map Prod.fst)
  rw [List.map_map] at h
  exact congrArg Prod.snd h

/-- What a promise may be settled with when its step did not get to the worker. -/
def refusals : List String :=
  ["Rapier worker session has been disposed", "Rapier worker step already pending", "Rapier worker session disposed"]

/-- A promise is settled by a refusal, or as the core answers to the step that the same call posted. -/
def Own (advance : σ → ℚ → σ × Response R) (core : σ) (posted : List (ℚ × Option ℕ)) (e : ℕ × Response R) : Prop :=
  (∃ message ∈ refusals, e.2 = .error message) ∨
    ∃ (k : ℕ) (dtS : ℚ), posted[k]? = some (dtS, some e.1) ∧ (outcomes advance core (posted.map Prod.fst))[k]? = some e.2

theorem Own.more {core : σ} {posted : List (ℚ × Option ℕ)} {e : ℕ × Response R} (h : Own advance core posted e)
    (p : ℚ × Option ℕ) : Own advance core (posted ++ [p]) e := by
  obtain h | ⟨k, dtS, hk, ho⟩ := h
  · exact .inl h
  · refine .inr ⟨k, dtS, ?_, ?_⟩
    · exact Thread.getElem?_of_prefix (List.prefix_append posted [p]) hk
    · rw [List.map_append]
      exact Thread.getElem?_of_prefix (outcomes_append core _ _) ho

/-! ### The invariant -/

/-- How many answers are awaited: one for the pending step, which was posted last. -/
def Awaits (history : History R) : Option (Option ℕ) → Prop
  | none => history.answers.length = history.posted.length
  | some pending => ∃ before dtS, history.posted = before ++ [(dtS, pending)] ∧ history.answers.length = before.length

/-- The session `s` and the worker that started with `core` agree on what is under way. -/
structure Linked (advance : σ → ℚ → σ × Response R) (core : σ) (s : State σ R) : Prop where
  /-- Until `dispose` the worker has nothing but the posted steps to handle. -/
  follows : s.session.disposed = false → ∃ handled, Thread.Follows (handleMessage advance) (some core)
    (requests s.history.posted) handled s.history.answers s.thread
  awaits : s.session.disposed = false → Awaits s.history s.session.pendingStep
  closed : s.session.disposed = true → s.session.pendingStep = none
  promises : Promises s.history.calls (s.history.settled.map Prod.fst) s.session.pendingStep.join
  own : ∀ e ∈ s.history.settled, Own advance core s.history.posted e

/-- The invariant of the session: it keeps account of the time as well. -/
structure Inv (advance : σ → ℚ → σ × Response R) (core : σ) (s : State σ R) : Prop extends Linked advance core s where
  time : s.history.accepted.sum = (s.history.posted.map Prod.fst).sum + s.session.queuedDt
  queue : 0 ≤ s.session.queuedDt
  /-- Time waits without a step under way only after an error. -/
  left : s.session.pendingStep = none → s.session.disposed = false → s.session.queuedDt ≠ 0 →
    ∃ message, s.history.answers.getLast? = some (.error message)

namespace Inv

variable {core : σ} {s : State σ R}

theorem start (core : σ) : Inv (R := R) advance core (.start core) where
  follows _ := ⟨[], .start _⟩
  awaits _ := rfl
  closed h := by cases h
  promises := .start
  own e he := by cases he
  time := by simp [State.start, RapierWorkerSession.new]
  queue := le_refl _
  left _ _ h := absurd rfl h

/-- A call of `step` that is refused. -/
theorem refuse (h : Inv advance core s) {message : String} (hmem : message ∈ refusals) :
    Inv advance core ({ s with history := { s.history with calls := s.history.calls + 1 } }.settle
      (some s.history.calls) (.error message)) := by
  rw [settle_eq]
  refine { h with promises := ?_, own := fun e he => ?_ }
  · simpa using h.promises.refuse
  · rcases List.mem_append.mp he with he | he
    · exact h.own e he
    · obtain rfl : e = (s.history.calls, .error message) := by simpa using he
      exact .inl ⟨message, hmem, rfl⟩

/-- A step is posted for `pending` from `u`, which is `s` save for the calls and the times taken on. -/
theorem dispatch (h : Linked advance core s) (hopen : s.session.disposed = false) (hfree : s.session.pendingStep = none)
    {u : State σ R} (hdisposed : u.session.disposed = false) (hthread : u.thread = s.thread)
    (hsettled : u.history.settled = s.history.settled) (hposted : u.history.posted = s.history.posted)
    (hanswers : u.history.answers = s.history.answers) {dtS : ℚ} {pending : Option ℕ}
    (hpromises : Promises u.history.calls (s.history.settled.map Prod.fst) pending) (hqueue : 0 ≤ u.session.queuedDt)
    (htime : u.history.accepted.sum = (s.history.posted.map Prod.fst).sum + dtS + u.session.queuedDt) :
    Inv advance core (u.dispatchStep dtS pending none) := by
  refine ⟨⟨fun _ => ?_, fun _ => ⟨s.history.posted, dtS, ?_, ?_⟩, fun hd => ?_, ?_, fun e he => ?_⟩, ?_, hqueue,
    fun hp => by cases hp⟩
  · obtain ⟨handled, hf⟩ := h.follows hopen
    refine ⟨handled, ?_⟩
    simpa [State.dispatchStep, requests, hthread, hposted, hanswers] using hf.post (.step dtS)
  · simp [State.dispatchStep, hposted]
  · have hawaits := h.awaits hopen
    rw [hfree] at hawaits
    exact (congrArg List.length hanswers).trans hawaits
  · exact absurd (hdisposed.symm.trans hd) Bool.false_ne_true
  · simpa [State.dispatchStep, hsettled] using hpromises
  · have hmem : e ∈ s.history.settled := hsettled ▸ he
    simpa [State.dispatchStep, hposted] using (h.own e hmem).more (dtS, pending)
  · simpa [State.dispatchStep, hposted] using htime

theorem step (h : Inv advance core s) (dtS : ℚ) : Inv advance core (s.step dtS none) := by
  unfold State.step
  cases hd : s.session.disposed with
  | true =>
    rw [if_pos hd]
    exact h.refuse (by simp [refusals])
  | false =>
    rw [if_neg (by simp [hd])]
    cases hp : s.session.pendingStep with
    | some pending =>
      rw [if_pos (by simp)]
      exact h.refuse (by simp [refusals])
    | none =>
      rw [if_neg (by simp)]
      have hpromises := h.promises
      rw [hp] at hpromises
      have htime := h.time
      apply Inv.dispatch h.toLinked hd hp
      case hdisposed => exact hd
      case hpromises => exact hpromises.call
      case hqueue => exact h.queue
      case htime =>
        simp only [State.accept, List.sum_append, List.sum_singleton]
        linarith
      all_goals rfl

theorem advance_ (h : Inv advance core s) (dtS : ℚ) : Inv advance core (s.advance dtS none) := by
  unfold State.advance
  by_cases hskip : (s.session.disposed || dtS ≤ 0) = true
  · rw [if_pos hskip]
    exact h
  rw [if_neg hskip]
  obtain ⟨hd, hpos⟩ : s.session.disposed = false ∧ 0 < dtS := by simpa using hskip
  have htime := h.time
  have hq := h.queue
  cases hp : s.session.pendingStep with
  | some pending =>
    rw [if_pos (by simp)]
    have hsum : (s.history.accepted ++ [dtS]).sum =
        (s.history.posted.map Prod.fst).sum + (s.session.queuedDt + dtS) := by
      rw [List.sum_append, htime, List.sum_singleton, add_assoc]
    exact { h with
      closed := fun hc => absurd (hd.symm.trans hc) Bool.false_ne_true
      time := hsum
      queue := add_nonneg hq hpos.le
      left := fun hn => absurd (hp.symm.trans hn) (by simp) }
  | none =>
    rw [if_neg (by simp)]
    have hpromises := h.promises
    rw [hp] at hpromises
    apply Inv.dispatch h.toLinked hd hp
    case hdisposed => exact hd
    case hpromises => exact hpromises
    case hqueue => exact hq
    case htime =>
      simp only [State.accept, List.sum_append, List.sum_singleton]
      linarith
    all_goals rfl

theorem drainPerf (h : Inv advance core s) : Inv advance core s.drainPerf := { h with }

theorem dispose (h : Inv advance core s) : Inv advance core s.dispose := by
  unfold State.dispose
  split
  · exact h
  · rw [rejectStep_eq]
    refine { h with follows := ?_, awaits := ?_, closed := fun _ => rfl, promises := ?_, own := fun e he => ?_,
                    left := ?_ }
    · exact fun hd => by cases hd
    · exact fun hd => by cases hd
    · simpa [Function.comp_def] using h.promises.settle
    · rcases List.mem_append.mp he with he | he
      · exact h.own e he
      · obtain ⟨call, -, rfl⟩ := List.mem_map.mp he
        exact .inl ⟨_, by simp [refusals], rfl⟩
    · exact fun _ hd => by cases hd

theorem serve (h : Inv advance core s) :
    Inv advance core { s with thread := s.thread.serve (handleMessage advance) } := by
  refine { h with follows := fun hd => ?_ }
  obtain ⟨handled, hf⟩ := h.follows hd
  exact hf.serve

theorem halt (h : Inv advance core s) (hd : s.session.disposed = true) :
    Inv advance core { s with thread := { s.thread with inbox := [], outbox := [] } } :=
  { h with follows := fun hopen => absurd (hopen.symm.trans hd) Bool.false_ne_true }

/-- The answer that is read next is that of the core to the pending step. -/
theorem answer_own (h : Inv advance core s) (hd : s.session.disposed = false) {message : Response R}
    {thread : Thread (Option σ) Request (Response R)} (hread : s.thread.read = some (message, thread)) :
    ∃ pending, s.session.pendingStep = some pending ∧
      s.history.answers.length + 1 = s.history.posted.length ∧
      (∃ handled, Thread.Follows (handleMessage advance) (some core) (requests s.history.posted) handled
        (s.history.answers ++ [message]) thread) ∧
      ∀ call, pending = some call → Own advance core s.history.posted (call, message) := by
  obtain ⟨handled, hf⟩ := h.follows hd
  have hnext := hf.read hread
  have hprefix := hnext.isPrefix_answers
  rw [handleAll_requests] at hprefix
  have hlen := hprefix.length_le
  simp only [List.length_append, List.length_singleton, length_outcomes, List.length_map] at hlen
  have hawaits := h.awaits hd
  cases hp : s.session.pendingStep with
  | none =>
    rw [hp] at hawaits
    have heq : s.history.answers.length = s.history.posted.length := hawaits
    omega
  | some pending =>
    rw [hp] at hawaits
    obtain ⟨before, dtS, hposted, hbefore⟩ := hawaits
    refine ⟨pending, rfl, by simp [hposted, hbefore], ⟨handled, hnext⟩, fun call hcall => .inr ?_⟩
    refine ⟨before.length, dtS, ?_, ?_⟩
    · simp [hposted, hcall]
    · refine Thread.getElem?_of_prefix hprefix ?_
      simp [← hbefore]

/-- The pending step is done: its promise is settled as the core answered. -/
theorem settled (h : Inv advance core s) (hd : s.session.disposed = false) {message : Response R}
    {thread : Thread (Option σ) Request (Response R)} (hread : s.thread.read = some (message, thread))
    (session : RapierWorkerSession) (hpending : session.pendingStep = none) :
    Linked advance core { session, thread, history := { s.history with
      answers := s.history.answers ++ [message]
      settled := s.history.settled ++ s.session.pendingStep.join.toList.map fun call => (call, message) } } := by
  obtain ⟨pending, hp, hlen, hfollows, hown⟩ := h.answer_own hd hread
  refine ⟨fun _ => hfollows, fun _ => ?_, fun _ => hpending, ?_, fun e he => ?_⟩
  · rw [hpending]
    show (s.history.answers ++ [message]).length = s.history.posted.length
    rw [List.length_append, List.length_singleton, hlen]
  · rw [hpending]
    simpa [Function.comp_def] using h.promises.settle
  · rcases List.mem_append.mp he with he | he
    · exact h.own e he
    · obtain ⟨call, hcall, rfl⟩ := List.mem_map.mp he
      refine hown call ?_
      rw [hp] at hcall
      simpa using hcall

/-- After `dispose` an answer changes nothing but the measurements. -/
theorem respond_disposed (h : Inv advance core s) (hd : s.session.disposed = true) (message : Response R)
    (thread : Thread (Option σ) Request (Response R)) (workerMs : ℚ) :
    Inv advance core (State.handleResponse
      { s with thread, history := { s.history with answers := s.history.answers ++ [message] } }
      message workerMs none) := by
  have hp := h.closed hd
  have hpromises := h.promises
  rw [hp] at hpromises
  have hclosed {P : Prop} (hopen : s.session.disposed = false) : P :=
    absurd (hopen.symm.trans hd) Bool.false_ne_true
  cases message with
  | error text =>
    rw [State.handleResponse, rejectStep_eq]
    refine ⟨⟨hclosed, hclosed, fun _ => rfl, ?_, ?_⟩, h.time, h.queue, fun _ => hclosed⟩
    · simpa [hp] using hpromises
    · simpa [hp] using h.own
  | ok result =>
    rw [State.handleResponse, State.stepped, settle_eq, if_neg (by simp [hd])]
    refine ⟨⟨hclosed, hclosed, fun _ => rfl, ?_, ?_⟩, h.time, h.queue, fun _ => hclosed⟩
    · simpa [hp] using hpromises
    · simpa [hp] using h.own

theorem respond (h : Inv advance core s) {message : Response R} {thread : Thread (Option σ) Request (Response R)}
    (hread : s.thread.read = some (message, thread)) (workerMs : ℚ) :
    Inv advance core (State.handleResponse
      { s with thread, history := { s.history with answers := s.history.answers ++ [message] } }
      message workerMs none) := by
  cases hd : s.session.disposed with
  | true => exact h.respond_disposed hd message thread workerMs
  | false =>
    cases message with
    | error text =>
      rw [State.handleResponse, rejectStep_eq]
      exact { toLinked := h.settled hd hread _ rfl
              time := h.time
              queue := h.queue
              left := fun _ _ _ => ⟨text, by simp⟩ }
    | ok result =>
      rw [State.handleResponse, State.stepped, settle_eq]
      by_cases hq : 0 < s.session.queuedDt
      · rw [if_pos (by simp [hd, hq])]
        apply dispatch (h.settled hd hread { s.session with pendingStep := none } rfl) hd rfl
        case hdisposed => exact hd
        case hpromises => simpa [Function.comp_def] using h.promises.settle
        case hqueue => exact le_refl _
        case htime => exact h.time.trans (add_zero _).symm
        all_goals rfl
      · rw [if_neg (by simp [hq])]
        exact { toLinked := h.settled hd hread _ rfl
                time := h.time
                queue := h.queue
                left := fun _ _ hne => absurd (lt_of_le_of_ne h.queue (Ne.symm hne)) hq }

theorem exec (h : Inv advance core s) {e : Event} (he : e.Regular) : Inv advance core (s.exec advance e) := by
  cases e with
  | step dtS thrown =>
    obtain rfl : thrown = none := he
    exact h.step dtS
  | advance dtS thrown =>
    obtain rfl : thrown = none := he
    exact h.advance_ dtS
  | drainPerf => exact h.drainPerf
  | dispose => exact h.dispose
  | serve => exact h.serve
  | respond workerMs thrown =>
    obtain rfl : thrown = none := he
    unfold State.exec
    cases hread : s.thread.read with
    | none => exact h
    | some answer => exact h.respond hread workerMs
  | fail message => exact he.elim
  | halt =>
    show Inv advance core (if s.session.disposed = true then _ else s)
    by_cases hd : s.session.disposed = true
    · rw [if_pos hd]
      exact h.halt hd
    · rw [if_neg hd]
      exact h

/-- The run lemma. -/
theorem after (h : Inv advance core s) {events : List Event} (hregular : ∀ e ∈ events, e.Regular) :
    Inv advance core (s.after advance events) := by
  induction events generalizing s with
  | nil => exact h
  | cons e events ih =>
    exact ih (h.exec (hregular e List.mem_cons_self)) fun e' he' => hregular e' (List.mem_cons_of_mem _ he')

end Inv

/-! ### The key result -/

/-- What a caller may rely on in state `s`, when the worker started with `core`. -/
structure Sound (advance : σ → ℚ → σ × Response R) (core : σ) (s : State σ R) : Prop where
  /-- One message is on its way while a step is pending, and none otherwise. -/
  oneUnderWay : s.session.disposed = false →
    s.thread.inbox.length + s.thread.outbox.length = if s.session.pendingStep.isSome then 1 else 0
  /-- The core has made the steps that were posted and are not on their way to it, in this order. -/
  stepped : s.session.disposed = false → ∃ done, requests s.history.posted = requests done ++ s.thread.inbox ∧
    s.thread.state = (Thread.handleAll (handleMessage advance) (some core) (requests done)).1
  /-- The times taken on are those posted and the one that is queued. -/
  noTimeLost : s.history.accepted.sum = (s.history.posted.map Prod.fst).sum + s.session.queuedDt
  /-- With no step under way none is queued, save after an error. -/
  nothingQueued : s.session.disposed = false → s.session.pendingStep = none →
    s.session.queuedDt = 0 ∨ ∃ message, s.history.answers.getLast? = some (.error message)
  /-- No promise is settled twice. -/
  settledOnce : (s.history.settled.map Prod.fst).Nodup
  /-- A promise is settled or belongs to the pending step. -/
  settledOrPending : ∀ call < s.history.calls,
    call ∈ s.history.settled.map Prod.fst ∨ s.session.pendingStep = some (some call)
  /-- A promise is settled by a refusal, or as the core answers to its own step. -/
  ownAnswer : ∀ e ∈ s.history.settled, Own advance core s.history.posted e
  /-- After `dispose` no promise is left open. -/
  allSettled : s.session.disposed = true → s.session.pendingStep = none

theorem Inv.sound {core : σ} {s : State σ R} (h : Inv advance core s) : Sound advance core s where
  oneUnderWay hd := by
    obtain ⟨handled, hf⟩ := h.follows hd
    obtain ⟨done, flying, hposted, hdone, hflying⟩ := List.map_eq_append_iff.mp hf.posted.symm
    have hanswers := congrArg List.length hf.answers
    rw [← hdone, show done.map (fun p : ℚ × Option ℕ => Request.step p.1) = requests done from rfl,
      handleAll_requests, List.length_append, length_outcomes, List.length_map] at hanswers
    have hinbox := congrArg List.length hflying
    have hlen := congrArg List.length hposted
    rw [List.length_map] at hinbox
    rw [List.length_append] at hlen
    have hawaits := h.awaits hd
    cases hp : s.session.pendingStep with
    | none =>
      rw [hp] at hawaits
      have heq : s.history.answers.length = s.history.posted.length := hawaits
      simp only [Option.isSome_none, Bool.false_eq_true, if_false]
      omega
    | some pending =>
      rw [hp] at hawaits
      obtain ⟨before, dtS, hbefore, heq⟩ := hawaits
      have hone : s.history.posted.length = before.length + 1 := by simp [hbefore]
      simp only [Option.isSome_some, if_true]
      omega
  stepped hd := by
    obtain ⟨handled, hf⟩ := h.follows hd
    obtain ⟨done, flying, -, hdone, -⟩ := List.map_eq_append_iff.mp hf.posted.symm
    refine ⟨done, ?_, ?_⟩
    · rw [← hf.posted, ← hdone]
      rfl
    · rw [hf.state, ← hdone]
      rfl
  noTimeLost := h.time
  nothingQueued hd hp := by
    by_cases hq : s.session.queuedDt = 0
    · exact .inl hq
    · exact .inr (h.left hp hd hq)
  settledOnce := h.promises.once
  settledOrPending call hcall := by
    refine ((h.promises.all call).mp hcall).imp_right fun hjoin => ?_
    cases hp : s.session.pendingStep with
    | none => simp [hp] at hjoin
    | some pending => rw [hp] at hjoin; exact congrArg some hjoin
  ownAnswer := h.own
  allSettled := h.closed

/-- A core that counts its time and refuses steps of more than a second. -/
def clock (t dtS : ℚ) : ℚ × Response ℚ := if dtS ≤ 1 then (t + dtS, .ok (t + dtS)) else (t, .error "step too long")

/-- Frames that come while a step is under way, a caller that has to wait, and a disposal. -/
def frames : List Event :=
  [.advance (1 / 60) none, .advance (1 / 60) none, .step (1 / 60) none, .advance (1 / 60) none, .serve,
    .respond 2 none, .serve, .respond 3 none, .step (1 / 60) none, .dispose, .serve, .halt]

/-- When the worker is reported to fail while a step is under way, the answer to this step settles the promise of
the next one. -/
theorem failure_mixes_answers {core : σ} {dtS : ℚ} {result : R} (hok : (advance core dtS).2 = .ok result)
    (message : String) (next workerMs : ℚ) :
    ((State.start core).after advance [.step dtS none, .fail message, .step next none, .serve,
      .respond workerMs none]).history.settled = [(0, .error message), (1, .ok result)] := by
  simp [State.after, State.exec, State.start, State.step, State.accept, State.dispatchStep, State.rejectStep,
    State.settle, RapierWorkerSession.new, Thread.start, Thread.post, Thread.serve, Thread.read, handleMessage,
    State.handleResponse, State.stepped, hok]

end Forge.Studio.RapierWorker
